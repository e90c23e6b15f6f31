import Concordance.Proofs.Cql.Grammar
import Mathlib.Data.List.TakeWhile

/-!
# Reading query texts

A reader takes what a text begins with and leaves the rest.

* `readItem`, `readSequence`, `Expression.read` — the readers of the grammar.
* `Reads` — a reader takes exactly the texts of a relation, as long as what follows cannot extend
  them.
* `read_eq_some_iff` — a text is read as a query exactly when it says that query; so a text says at
  most one query (`isQuery_unique`), and what is written is read back (`read_render`).
-/

namespace Concordance.Cql

/-- Takes what a text begins with and leaves the rest, or fails. -/
abbrev Reader (α : Type) := List Char → Option (α × List Char)

/-! ## Readers -/

/-- Reads a part between two fixed texts. -/
def readBetween {α : Type} (before after : List Char) (reader : Reader α) : Reader α := fun cs => do
  let rest ← cs.dropPrefix? before
  let (x, rest) ← reader rest
  let rest ← rest.dropPrefix? after
  return (x, rest)

/-- Reads as many parts with a mark between them as there are, at least one and at most `fuel`. -/
def readJoined {α : Type} (mark : List Char) (reader : Reader α) : Nat → Reader (List α)
  | 0, _ => none
  | fuel + 1, cs =>
    match reader cs with
    | none => none
    | some (x, rest) =>
      match rest.dropPrefix? mark with
      | none => some ([x], rest)
      | some next =>
        match readJoined mark reader fuel next with
        | none => some ([x], rest)
        | some (xs, rest) => some (x :: xs, rest)

/-- Reads parts with a mark between them. -/
def readAll {α : Type} (mark : List Char) (reader : Reader α) : Reader (List α) := fun cs =>
  readJoined mark reader cs.length cs

/-- Reads a run of characters of a kind, at least one. -/
def readRun (kind : Char → Bool) : Reader (List Char) := fun cs =>
  if cs.takeWhile kind = [] then none else some (cs.takeWhile kind, cs.dropWhile kind)

/-- Reads an attribute, a comparison sign and a value. -/
def readComparison (sign : List Char) : Reader Test := fun cs => do
  let (attr, rest) ← readRun Char.isAlpha cs
  let rest ← rest.dropPrefix? sign
  let after ← (rest.dropWhile (· ≠ '"')).dropPrefix? ['"']
  return (⟨String.ofList attr, String.ofList (rest.takeWhile (· ≠ '"'))⟩, after)

/-- Reads a test. -/
def readTest : Reader Test :=
  readBetween ['['] [']'] (readComparison ['=', '"'])

/-- Reads any number of conditions. -/
def readClause : Reader (List Test) := fun cs =>
  (readAll [' ', '&', ' '] (readComparison ['!', '=', '"']) cs).or (some ([], cs))

/-- Reads a decimal number. -/
def readDecimal : Reader Int := fun cs => do
  let (digits, rest) ← readRun Char.isDigit cs
  return (Nat.ofDigitChars 10 digits 0, rest)

/-- Reads a gap. -/
def readGap : Reader (List Test × Int) := fun cs => do
  let rest ← cs.dropPrefix? ['[']
  let (excluded, rest) ← readClause rest
  let (bound, rest) ← readBetween [']', '\x7b', '0', ','] ['\x7d'] readDecimal rest
  return ((excluded, bound), rest)

/-- Reads tests in parentheses. -/
def readGroup : Reader (List Test) :=
  readBetween ['('] [')'] (readAll ['|'] readTest)

/-- Reads an item. -/
def readItem : Reader Item := fun cs =>
  (((readTest cs).map fun p => (Item.token p.1, p.2)).or
    ((readGap cs).map fun p => (Item.gap p.1.1 p.1.2, p.2))).or
    ((readGroup cs).map fun p => (Item.group p.1, p.2))

/-- Reads a sequence. -/
def readSequence : Reader Sequence :=
  readAll [' '] readItem

/-- The query that a text says. -/
def Expression.read (text : String) : Option Expression :=
  match readAll [' ', '|', ' '] readSequence text.toList with
  | some (e, []) => some e
  | _ => none

/-! ## Readers of a relation -/

/-- The reader takes exactly the texts of the relation, where what follows meets `ends`. -/
structure Reads {α : Type} (reader : Reader α) (part : List Char → α → Prop)
    (ends : List Char → Prop) : Prop where
  sound : ∀ {cs x rest}, reader cs = some (x, rest) → ∃ s, cs = s ++ rest ∧ part s x
  complete : ∀ {s x}, part s x → ∀ rest, ends rest → reader (s ++ rest) = some (x, rest)

theorem dropPrefix?_append (mark rest : List Char) :
    (mark ++ rest).dropPrefix? mark = some rest :=
  List.dropPrefix?_append_of_beq rest (beq_self_eq_true mark)

theorem eq_append_of_dropPrefix? {cs mark rest : List Char} (h : cs.dropPrefix? mark = some rest) :
    cs = mark ++ rest := by
  obtain ⟨p, hp, hmark⟩ := List.dropPrefix?_eq_some_iff.1 h
  rw [hp, eq_of_beq hmark]

theorem dropPrefix?_ne {c d : Char} (h : c ≠ d) (cs mark : List Char) :
    (c :: cs).dropPrefix? (d :: mark) = none := by
  simp [List.dropPrefix?, h]

theorem Reads.between {α : Type} {reader : Reader α} {part : List Char → α → Prop}
    {ends : List Char → Prop} (h : Reads reader part ends) {before after : List Char}
    (hafter : ∀ rest, ends (after ++ rest)) :
    Reads (readBetween before after reader) (Between before after part) fun _ => True where
  sound := by
    intro cs x rest hread
    simp only [readBetween, bind, pure, Option.bind_eq_some_iff, Option.some.injEq,
      Prod.mk.injEq] at hread
    obtain ⟨cs1, h1, ⟨y, cs2⟩, h2, cs3, h3, rfl, rfl⟩ := hread
    dsimp only at h3
    obtain ⟨t, ht, hpart⟩ := h.sound h2
    refine ⟨_, ?_, t, rfl, hpart⟩
    rw [eq_append_of_dropPrefix? h1, ht, eq_append_of_dropPrefix? h3]
    simp only [List.append_assoc]
  complete := by
    rintro _ x ⟨t, rfl, hpart⟩ rest -
    have hread := h.complete hpart _ (hafter rest)
    simp only [readBetween, bind, pure, List.append_assoc, dropPrefix?_append, Option.bind_some,
      hread]

section Joined

variable {α : Type} {reader : Reader α} {part : List Char → α → Prop} {ends : List Char → Prop}
  {mark : List Char}

theorem readJoined_sound (h : Reads reader part ends) {fuel : Nat} {cs : List Char} {xs : List α}
    {rest : List Char} (hread : readJoined mark reader fuel cs = some (xs, rest)) :
    ∃ s, cs = s ++ rest ∧ Joined mark part s xs := by
  induction fuel generalizing cs xs rest with
  | zero => simp [readJoined] at hread
  | succ fuel ih =>
    rw [readJoined] at hread
    split at hread
    · cases hread
    · rename_i x rest1 hx
      obtain ⟨s, rfl, hs⟩ := h.sound hx
      split at hread
      · cases hread
        exact ⟨s, rfl, .one hs⟩
      · rename_i next hnext
        split at hread
        · cases hread
          exact ⟨s, rfl, .one hs⟩
        · rename_i ys rest2 hys
          cases hread
          obtain ⟨t, rfl, ht⟩ := ih hys
          refine ⟨_, ?_, .cons hs ht⟩
          rw [eq_append_of_dropPrefix? hnext]
          simp only [List.append_assoc]

theorem readJoined_eq_none {fuel : Nat} {cs : List Char} (h : reader cs = none) :
    readJoined mark reader fuel cs = none := by
  cases fuel with
  | zero => rfl
  | succ fuel => simp only [readJoined, h]

/-- The run of parts stops where no mark follows, or nothing to read follows the mark. -/
theorem readJoined_complete (h : Reads reader part ends) (hmark : ∀ t, ends (mark ++ t))
    {s : List Char} {xs : List α} (hs : Joined mark part s xs) {rest : List Char}
    (hends : ends rest) (hstop : ∀ next, rest = mark ++ next → reader next = none) {fuel : Nat}
    (hfuel : xs.length ≤ fuel) : readJoined mark reader fuel (s ++ rest) = some (xs, rest) := by
  induction hs generalizing fuel with
  | one hx =>
    obtain ⟨fuel, rfl⟩ : ∃ k, fuel = k + 1 := ⟨fuel - 1, by simp at hfuel; omega⟩
    rw [readJoined, h.complete hx _ hends]
    dsimp only
    split
    · rfl
    · rename_i next hnext
      rw [readJoined_eq_none (hstop next (eq_append_of_dropPrefix? hnext))]
  | @cons s t x xs hx hxs ih =>
    obtain ⟨fuel, rfl⟩ : ∃ k, fuel = k + 1 := ⟨fuel - 1, by simp at hfuel; omega⟩
    have hread := h.complete hx _ (hmark (t ++ rest))
    rw [readJoined, List.append_assoc, List.append_assoc, hread]
    simp only [dropPrefix?_append, ih (by simpa using hfuel)]

theorem Reads.joined (h : Reads reader part ends) (hmark : ∀ t, ends (mark ++ t))
    (hpart : ∀ s x, part s x → s ≠ []) :
    Reads (readAll mark reader) (Joined mark part)
      fun rest => ends rest ∧ ∀ next, rest = mark ++ next → reader next = none where
  sound := readJoined_sound h
  complete := by
    rintro s xs hs rest ⟨hends, hstop⟩
    have hlen := hs.length_le hpart
    exact readJoined_complete h hmark hs hends hstop (by simp only [List.length_append]; omega)

end Joined

/-! ## The readers of the grammar -/

theorem span_append (kind : Char → Bool) {run rest : List Char}
    (hrun : ∀ c ∈ run, kind c = true) (hrest : ∀ c more, rest = c :: more → kind c = false) :
    (run ++ rest).takeWhile kind = run ∧ (run ++ rest).dropWhile kind = rest := by
  rw [List.takeWhile_append_of_pos hrun, List.dropWhile_append_of_pos hrun]
  cases rest with
  | nil => simp
  | cons c more => simp [hrest c more rfl]

theorem readRun_reads (kind : Char → Bool) :
    Reads (readRun kind) (fun s x => s = x ∧ x ≠ [] ∧ ∀ c ∈ x, kind c = true)
      fun rest => ∀ c more, rest = c :: more → kind c = false where
  sound := by
    intro cs x rest h
    unfold readRun at h
    split at h
    · cases h
    · rename_i hne
      cases h
      exact ⟨_, (List.takeWhile_append_dropWhile ..).symm, rfl, hne,
        fun c hc => List.mem_takeWhile_imp hc⟩
  complete := by
    rintro _ x ⟨rfl, hne, hrun⟩ rest hrest
    obtain ⟨htake, hdrop⟩ := span_append kind hrun hrest
    simp only [readRun, htake, hdrop, if_neg hne]

theorem readComparison_reads {sign : List Char}
    (hsign : ∃ c more, sign = c :: more ∧ c.isAlpha = false) :
    Reads (readComparison sign) (IsComparison sign) fun _ => True where
  sound := by
    intro cs x rest h
    simp only [readComparison, bind, pure, Option.bind_eq_some_iff, Option.some.injEq,
      Prod.mk.injEq] at h
    obtain ⟨⟨attr, cs1⟩, h1, cs2, h2, cs3, h3, rfl, rfl⟩ := h
    dsimp only at h2 ⊢
    obtain ⟨_, rfl, rfl, hne, hattr⟩ := (readRun_reads _).sound h1
    refine ⟨_, ?_, .intro ⟨hne, hattr⟩ fun hmem => ?_⟩
    · have hvalue := List.takeWhile_append_dropWhile (p := fun c : Char => c ≠ '"') (l := cs2)
      rw [eq_append_of_dropPrefix? h3] at hvalue
      rw [eq_append_of_dropPrefix? h2]
      conv_lhs => rw [← hvalue]
      simp only [List.append_assoc]
    · simpa using List.mem_takeWhile_imp hmem
  complete := by
    rintro _ _ ⟨hattr, hvalue⟩ rest -
    rename_i attr value
    obtain ⟨c, more, rfl, hc⟩ := hsign
    have hname := (readRun_reads Char.isAlpha).complete ⟨rfl, hattr⟩
      ((c :: more) ++ (value ++ (['"'] ++ rest)))
      fun d ds hd => by cases hd; exact hc
    have hquote : ∀ d ∈ value, decide (d ≠ '"') = true := by
      intro d hd
      simpa using fun he : d = '"' => hvalue (he ▸ hd)
    have hstop : ∀ d ds, ['"'] ++ rest = d :: ds → decide (d ≠ '"') = false := by
      intro d ds hd
      cases hd
      simp
    obtain ⟨htake, hdrop⟩ := span_append (fun c => c ≠ '"') hquote hstop
    simp only [readComparison, bind, pure, List.append_assoc, hname, Option.bind_some,
      dropPrefix?_append, htake, hdrop]

theorem readComparison_eq_none {sign : List Char} {c : Char} (hc : c.isAlpha = false)
    (cs : List Char) : readComparison sign (c :: cs) = none := by
  simp [readComparison, readRun, hc]

theorem readTest_reads : Reads readTest IsTest fun _ => True :=
  (readComparison_reads ⟨'=', ['"'], rfl, by decide⟩).between fun _ => trivial

theorem ne_nil_of_isComparison {sign s : List Char} {t : Test} (h : IsComparison sign s t) :
    s ≠ [] := by
  cases h
  simp

theorem ne_nil_of_isTest {s : List Char} {t : Test} (h : IsTest s t) : s ≠ [] := by
  obtain ⟨_, rfl, -⟩ := h
  simp

theorem readClause_reads :
    Reads readClause IsClause fun rest => ∃ more, rest = ']' :: more where
  sound := by
    intro cs ts rest h
    rw [readClause, Option.or_eq_some_iff] at h
    rcases h with h | ⟨-, h⟩
    · obtain ⟨s, hs, hts⟩ := ((readComparison_reads ⟨'!', _, rfl, by decide⟩).joined
        (fun _ => trivial) fun _ _ => ne_nil_of_isComparison).sound h
      exact ⟨s, hs, .some hts⟩
    · cases h
      exact ⟨[], rfl, .none⟩
  complete := by
    rintro s ts hts rest ⟨more, rfl⟩
    rw [readClause]
    cases hts with
    | none =>
      rw [List.nil_append, readAll, readJoined_eq_none (readComparison_eq_none (by decide) _)]
      rfl
    | some hts =>
      rw [((readComparison_reads ⟨'!', _, rfl, by decide⟩).joined
        (fun _ => trivial) fun _ _ => ne_nil_of_isComparison).complete hts _
        ⟨trivial, fun next h => by cases h⟩]
      rfl

theorem readDecimal_reads :
    Reads readDecimal IsDecimal fun rest => ∀ c more, rest = c :: more → c.isDigit = false where
  sound := by
    intro cs n rest h
    simp only [readDecimal, bind, pure, Option.bind_eq_some_iff, Option.some.injEq,
      Prod.mk.injEq] at h
    obtain ⟨⟨digits, cs1⟩, h1, rfl, rfl⟩ := h
    obtain ⟨_, rfl, rfl, hne, hdigits⟩ := (readRun_reads _).sound h1
    exact ⟨_, rfl, .intro hne hdigits⟩
  complete := by
    rintro s _ ⟨hne, hdigits⟩ rest hrest
    simp only [readDecimal, bind, pure, (readRun_reads _).complete ⟨rfl, hne, hdigits⟩ _ hrest,
      Option.bind_some]

theorem readBound_reads :
    Reads (readBetween [']', '\x7b', '0', ','] ['\x7d'] readDecimal)
      (Between [']', '\x7b', '0', ','] ['\x7d'] IsDecimal) fun _ => True :=
  readDecimal_reads.between fun _ c more h => by cases h; decide

theorem readGap_reads : Reads readGap IsGap fun _ => True where
  sound := by
    intro cs g rest h
    simp only [readGap, bind, pure, Option.bind_eq_some_iff, Option.some.injEq,
      Prod.mk.injEq] at h
    obtain ⟨cs1, h1, ⟨ts, cs2⟩, h2, ⟨n, cs3⟩, h3, rfl, rfl⟩ := h
    obtain ⟨clause, rfl, hclause⟩ := readClause_reads.sound h2
    obtain ⟨bound, rfl, hbound⟩ := readBound_reads.sound h3
    refine ⟨_, ?_, clause, bound, rfl, hclause, hbound⟩
    rw [eq_append_of_dropPrefix? h1]
    simp only [List.cons_append, List.nil_append, List.append_assoc]
  complete := by
    rintro _ ⟨ts, n⟩ ⟨clause, bound, rfl, hclause, hbound⟩ rest -
    have hstart : ∃ more, bound ++ rest = ']' :: more := by
      obtain ⟨digits, rfl, -⟩ := hbound
      exact ⟨_, rfl⟩
    have hopen : ('[' :: (clause ++ bound) ++ rest).dropPrefix? ['['] =
        some (clause ++ (bound ++ rest)) := by
      simpa using dropPrefix?_append ['['] (clause ++ (bound ++ rest))
    simp only [readGap, bind, pure, hopen, Option.bind_some,
      readClause_reads.complete hclause _ hstart, readBound_reads.complete hbound _ trivial]

theorem readGroup_reads : Reads readGroup IsGroup fun _ => True :=
  (readTest_reads.joined (fun _ => trivial) fun _ _ => ne_nil_of_isTest).between
    fun _ => ⟨trivial, fun next h => by cases h⟩

theorem ne_nil_of_isItem {s : List Char} {i : Item} (h : IsItem s i) : s ≠ [] := by
  cases h with
  | token h => exact ne_nil_of_isTest h
  | gap h => obtain ⟨_, _, rfl, -⟩ := h; simp
  | group h => obtain ⟨_, rfl, -⟩ := h; simp

theorem ne_nil_of_isSequence {s : List Char} {q : Sequence} (h : IsSequence s q) : s ≠ [] := by
  cases h with
  | one h => exact ne_nil_of_isItem h
  | cons h rest =>
    intro hnil
    exact ne_nil_of_isItem h (List.append_eq_nil_iff.1 hnil).1

/-! ## No part is taken for another one -/

theorem readBetween_eq_none {α : Type} (before after : List Char) {rest : List Char}
    {reader : Reader α} (h : reader rest = none) :
    readBetween before after reader (before ++ rest) = none := by
  simp only [readBetween, bind, dropPrefix?_append, Option.bind_some, h, Option.bind_none]

theorem Joined.starts {α : Type} {mark s : List Char} {part : List Char → α → Prop} {xs : List α}
    (h : Joined mark part s xs) : ∃ first x more, s = first ++ more ∧ part first x := by
  cases h with
  | one h => exact ⟨_, _, [], (List.append_nil _).symm, h⟩
  | cons h rest => exact ⟨_, _, _, rfl, h⟩

/-- A comparison by one sign is not read as one by another sign. -/
theorem readComparison_of_other_sign {c d : Char} (hc : c.isAlpha = false) (hcd : c ≠ d)
    {sign other s : List Char} {t : Test} (h : IsComparison (c :: sign) s t) (rest : List Char) :
    readComparison (d :: other) (s ++ rest) = none := by
  cases h with
  | @intro attr value hattr hvalue =>
    have hname := (readRun_reads Char.isAlpha).complete ⟨rfl, hattr⟩
      (c :: (sign ++ (value ++ '"' :: rest))) fun d ds hd => by cases hd; exact hc
    simp only [readComparison, bind, List.append_assoc, List.cons_append, List.nil_append, hname,
      Option.bind_some, dropPrefix?_ne hcd, Option.bind_none]

/-- Behind the bracket of a gap no test goes on: there is a closing bracket or the wrong sign. -/
theorem readTest_gap {s : List Char} {g : List Test × Int} (h : IsGap s g) (rest : List Char) :
    readTest (s ++ rest) = none := by
  obtain ⟨ts, n⟩ := g
  obtain ⟨clause, bound, rfl, hclause, digits, rfl, -⟩ := h
  have hread : readComparison ['=', '"']
      (clause ++ (']' :: '\x7b' :: '0' :: ',' :: (digits ++ '\x7d' :: rest))) = none := by
    dsimp only at hclause
    cases hclause with
    | none => exact readComparison_eq_none (by decide) _
    | some hts =>
      obtain ⟨first, t, more, rfl, ht⟩ := hts.starts
      rw [List.append_assoc]
      exact readComparison_of_other_sign (by decide) (by decide) ht _
  simpa [readTest] using readBetween_eq_none ['['] [']'] hread

theorem readTest_eq_none {c : Char} (h : c ≠ '[') (cs : List Char) : readTest (c :: cs) = none := by
  simp only [readTest, readBetween, bind, dropPrefix?_ne h, Option.bind_none]

theorem readGap_eq_none {c : Char} (h : c ≠ '[') (cs : List Char) : readGap (c :: cs) = none := by
  simp only [readGap, bind, dropPrefix?_ne h, Option.bind_none]

theorem readGroup_eq_none {c : Char} (h : c ≠ '(') (cs : List Char) :
    readGroup (c :: cs) = none := by
  simp only [readGroup, readBetween, bind, dropPrefix?_ne h, Option.bind_none]

theorem readItem_eq_none {c : Char} (h : c ≠ '[') (h' : c ≠ '(') (cs : List Char) :
    readItem (c :: cs) = none := by
  simp only [readItem, readTest_eq_none h, readGap_eq_none h, readGroup_eq_none h',
    Option.map_none, Option.or_none]

/-! ## Queries -/

theorem readItem_reads : Reads readItem IsItem fun _ => True where
  sound := by
    intro cs i rest h
    simp only [readItem, Option.or_eq_some_iff, Option.map_eq_some_iff, Prod.mk.injEq] at h
    rcases h with (⟨⟨t, _⟩, hread, rfl, rfl⟩ | ⟨-, ⟨g, _⟩, hread, rfl, rfl⟩) |
      ⟨-, ⟨ts, _⟩, hread, rfl, rfl⟩
    · obtain ⟨s, hs, ht⟩ := readTest_reads.sound hread
      exact ⟨s, hs, .token ht⟩
    · obtain ⟨s, hs, hg⟩ := readGap_reads.sound hread
      exact ⟨s, hs, .gap hg⟩
    · obtain ⟨s, hs, hts⟩ := readGroup_reads.sound hread
      exact ⟨s, hs, .group hts⟩
  complete := by
    intro s i h rest _
    cases h with
    | token h => simp [readItem, readTest_reads.complete h _ trivial]
    | gap h => simp [readItem, readTest_gap h, readGap_reads.complete h _ trivial]
    | group h =>
      have hread := readGroup_reads.complete h rest trivial
      obtain ⟨t, rfl, -⟩ := h
      simp only [List.cons_append] at hread ⊢
      simp only [readItem, readTest_eq_none (c := '(') (by decide),
        readGap_eq_none (c := '(') (by decide), hread, Option.map_none, Option.map_some,
        Option.none_or]

theorem readSequence_reads :
    Reads readSequence IsSequence
      fun rest => True ∧ ∀ next, rest = [' '] ++ next → readItem next = none :=
  readItem_reads.joined (fun _ => trivial) fun _ _ => ne_nil_of_isItem

theorem readQuery_reads :
    Reads (readAll [' ', '|', ' '] readSequence) IsQuery
      fun rest => (True ∧ ∀ next, rest = [' '] ++ next → readItem next = none) ∧
        ∀ next, rest = [' ', '|', ' '] ++ next → readSequence next = none := by
  refine readSequence_reads.joined (fun t => ⟨trivial, fun next h => ?_⟩)
    fun _ _ => ne_nil_of_isSequence
  cases h
  exact readItem_eq_none (by decide) (by decide) _

/-- **A text is read as a query exactly when it says that query.** -/
theorem read_eq_some_iff {text : String} {e : Expression} :
    Expression.read text = some e ↔ IsQuery text.toList e := by
  constructor
  · intro h
    unfold Expression.read at h
    split at h
    · rename_i found hread
      cases h
      obtain ⟨s, hs, he⟩ := readQuery_reads.sound hread
      rwa [hs, List.append_nil]
    · cases h
  · intro h
    have hread := readQuery_reads.complete h []
      ⟨⟨trivial, fun _ hn => by cases hn⟩, fun _ hn => by cases hn⟩
    rw [List.append_nil] at hread
    simp only [Expression.read, hread]

/-- A text says at most one query. -/
theorem isQuery_unique {cs : List Char} {e e' : Expression} (h : IsQuery cs e)
    (h' : IsQuery cs e') : e = e' := by
  have hread : Expression.read (String.ofList cs) = some e := read_eq_some_iff.2 (by simpa using h)
  have hread' : Expression.read (String.ofList cs) = some e' :=
    read_eq_some_iff.2 (by simpa using h')
  rw [hread] at hread'
  exact Option.some.inj hread'

/-- What is written is read back. -/
theorem read_render {e : Expression} (h : e.Plain) : Expression.read e.render = some e :=
  read_eq_some_iff.2 (isQuery_render h)

/-- Sequences with the same text are the same. -/
theorem Sequence.render_inj {s t : Sequence} (hs : s.Plain) (ht : t.Plain)
    (h : s.render = t.render) : s = t := by
  have hread {q : Sequence} (hq : q.Plain) : Expression.read q.render = some [q] :=
    read_eq_some_iff.2 (.one (isSequence_render hq))
  have heq := hread hs
  rw [h, hread ht] at heq
  simpa using heq.symm

end Concordance.Cql
