import Concordance.Proofs.Query.Expression
import Mathlib.Computability.Language

/-!
# What a query matches

A query is matched against a text of tokens.  Its meaning is the language of the token sequences it
matches, and a span of a text matches if the tokens from its start to its end are such a sequence.

* `Token`, `Reading` — a token by its attributes, and how a value is compared with one of them.
* `Item.language`, `Sequence.language`, `Expression.language`, `Query.language` — the meaning of
  each part.
* `Covers`, `Query.MatchesSpan` — spans of a text.
* `Stands`, `Apart`, `Near` — a kind of token at a position, a run of tokens between two positions,
  and both together.
* `covers_single`, `covers_single_mul` — a span is matched token by token and run by run; so are
  two tokens with a gap (`covers_pair`) and three (`covers_triple`).
* `Query.Writes.language_eq`, `Query.Writes.matchesSpan_iff` — a query matches what the sequences of
  its expression do.
-/

namespace Concordance

open Concordance.Cql

namespace Cql

/-- A token: the text of each of its attributes. -/
abbrev Token := String → String

/-- Which texts pass for a value. -/
abbrev Reading := String → String → Prop

/-- A value stands for itself alone. -/
def verbatim : Reading := fun value text => text = value

/-! ## The language of each part -/

/-- One token of a kind. -/
def single (P : Token → Prop) : Language Token :=
  {w | ∃ k, w = [k] ∧ P k}

/-- At most `bound` tokens, all of a kind. -/
def upTo (bound : Int) (P : Token → Prop) : Language Token :=
  {w | (w.length : Int) ≤ bound ∧ ∀ k ∈ w, P k}

/-- The token passes the test. -/
def Test.Holds (R : Reading) (t : Test) (k : Token) : Prop :=
  R t.value (k t.attr)

/-- What an item matches. -/
def Item.language (R : Reading) : Item → Language Token
  | .token test => single (test.Holds R)
  | .gap excluded bound => upTo bound fun k => ∀ t ∈ excluded, ¬t.Holds R k
  | .group tests => single fun k => ∃ t ∈ tests, t.Holds R k

/-- What a sequence matches: its items one after the other. -/
def Sequence.language (R : Reading) (s : Sequence) : Language Token :=
  (s.map (Item.language R)).prod

/-- What an expression matches: whatever one of its sequences does. -/
def Expression.language (R : Reading) (e : Expression) : Language Token :=
  {w | ∃ s ∈ e, w ∈ Sequence.language R s}

end Cql

/-- What a query matches: what the expression does that its text is read as. -/
def Query.language (R : Reading) (q : Query) : Language Token :=
  {w | ∃ e, Expression.read q.text = some e ∧ w ∈ Expression.language R e}

namespace Cql

/-! ## Spans -/

/-- The tokens from position `i` to position `j` of a text are a word of the language. -/
def Covers (L : Language Token) (ts : List Token) (i j : Nat) : Prop :=
  i ≤ j ∧ j < ts.length ∧ ts.extract i (j + 1) ∈ L

/-- A token of a kind stands at position `i`. -/
def Stands (P : Token → Prop) (ts : List Token) (i : Nat) : Prop :=
  ∃ k, ts[i]? = some k ∧ P k

/-- Position `i` comes before position `j`, with at most `bound` tokens strictly between them, all
of a kind. -/
structure Apart (bound : Int) (P : Token → Prop) (ts : List Token) (i j : Nat) : Prop where
  lt : i < j
  count : ((j - i - 1 : Nat) : Int) ≤ bound
  between : ∀ k, i < k → k < j → ∀ t, ts[k]? = some t → P t

/-- Tokens of two kinds stand at the ends of a span, at most `bound` tokens strictly between them,
all of the kind `Q`. -/
structure Near (A B Q : Token → Prop) (bound : Int) (ts : List Token) (i j : Nat) : Prop where
  first : Stands A ts i
  apart : Apart bound Q ts i j
  second : Stands B ts j

end Cql

/-- The query matches the tokens from position `i` to position `j`. -/
def Query.MatchesSpan (R : Reading) (q : Query) (ts : List Token) (i j : Nat) : Prop :=
  Covers (q.language R) ts i j

namespace Cql

section Spans

variable {L : Language Token} {P Q : Token → Prop} {bound : Int} {ts : List Token} {i j : Nat}

/-- A span cuts the text in three. -/
theorem covers_iff_append :
    Covers L ts i j ↔ i ≤ j ∧ ∃ before w after, ts = before ++ (w ++ after) ∧ before.length = i ∧
      i + w.length = j + 1 ∧ w ∈ L := by
  constructor
  · rintro ⟨hij, hj, hw⟩
    refine ⟨hij, ts.take i, _, ts.drop (j + 1), ?_, ?_, ?_, hw⟩
    · rw [List.extract_eq_take_drop, show ts.drop (j + 1) = (ts.drop i).drop (j + 1 - i) by
        rw [List.drop_drop]; congr 1; omega]
      rw [List.take_append_drop, List.take_append_drop]
    · rw [List.length_take]
      omega
    · rw [List.extract_eq_take_drop, List.length_take, List.length_drop]
      omega
  · rintro ⟨hij, before, w, after, rfl, rfl, hlen, hw⟩
    refine ⟨hij, ?_, ?_⟩
    · simp only [List.length_append]
      omega
    · rw [List.extract_eq_take_drop, List.drop_left, List.take_left' (by omega)]
      exact hw

theorem covers_single : Covers (single P) ts i j ↔ i = j ∧ Stands P ts i := by
  rw [covers_iff_append]
  constructor
  · rintro ⟨-, before, _, after, rfl, rfl, hlen, k, rfl, hk⟩
    rw [List.length_singleton] at hlen
    exact ⟨by omega, k, by simp, hk⟩
  · rintro ⟨rfl, k, hget, hk⟩
    obtain ⟨hi, rfl⟩ := List.getElem?_eq_some_iff.1 hget
    refine ⟨Nat.le_refl i, ts.take i, [ts[i]], ts.drop (i + 1), ?_, ?_, rfl, _, rfl, hk⟩
    · rw [List.singleton_append, List.getElem_cons_drop, List.take_append_drop]
    · rw [List.length_take]
      omega

/-- The tokens of a run behind a token, by their positions in the text. -/
theorem getElem?_run (front : List Token) (k : Token) {g : List Token} (after : List Token)
    {d : Nat} (hd : d < g.length) :
    (front ++ k :: (g ++ after))[front.length + (d + 1)]? = g[d]? := by
  rw [List.getElem?_append_right (by omega), Nat.add_sub_cancel_left, List.getElem?_cons_succ,
    List.getElem?_append_left hd]

/-- A token, a run of tokens and what follows match a span if the token stands at its start and
what follows matches from a later position on. -/
theorem covers_single_mul (hL : [] ∉ L) :
    Covers (single P * (upTo bound Q * L)) ts i j ↔
      ∃ m, Stands P ts i ∧ Apart bound Q ts i m ∧ Covers L ts m j := by
  constructor
  · rw [covers_iff_append]
    rintro ⟨-, before, w, after, rfl, rfl, hlen, hw⟩
    obtain ⟨_, ⟨k, rfl, hk⟩, _, ⟨g, ⟨hbound, hg⟩, v, hv, rfl⟩, rfl⟩ := hw
    have hpos : 0 < v.length := by
      rw [List.length_pos_iff]
      rintro rfl
      exact hL hv
    simp only [List.length_append, List.length_singleton] at hlen
    refine ⟨before.length + 1 + g.length, ⟨k, by simp, hk⟩, ⟨by omega, ?_, ?_⟩, ?_⟩
    · rwa [show before.length + 1 + g.length - before.length - 1 = g.length by omega]
    · intro n hn hn' t ht
      obtain ⟨d, rfl⟩ := Nat.exists_eq_add_of_lt hn
      rw [List.append_assoc, List.singleton_append, List.append_assoc, Nat.add_assoc,
        getElem?_run before k _ (by omega)] at ht
      exact hg t (List.mem_of_getElem? ht)
    · rw [covers_iff_append]
      refine ⟨by omega, before ++ ([k] ++ g), v, after, ?_, ?_, by omega, hv⟩
      · simp only [List.append_assoc]
      · simp only [List.length_append, List.length_singleton]
        omega
  · rintro ⟨m, ⟨k, hget, hk⟩, hapart, hcovers⟩
    obtain ⟨hmj, before, v, after, rfl, rfl, hlen, hv⟩ := covers_iff_append.1 hcovers
    have hlt := hapart.lt
    obtain ⟨front, g, rfl, rfl⟩ : ∃ front g, before = front ++ k :: g ∧ front.length = i := by
      refine ⟨before.take i, before.drop (i + 1), ?_, ?_⟩
      · rw [List.getElem?_append_left hlt] at hget
        obtain ⟨hi, rfl⟩ := List.getElem?_eq_some_iff.1 hget
        rw [List.getElem_cons_drop, List.take_append_drop]
      · rw [List.length_take]
        omega
    rw [covers_iff_append]
    simp only [List.length_append, List.length_cons] at hmj hlen hapart
    refine ⟨by omega, front, [k] ++ (g ++ v), after, ?_, rfl, ?_, ?_⟩
    · simp
    · simp only [List.length_append, List.length_singleton]
      omega
    · refine ⟨[k], ⟨k, rfl, hk⟩, g ++ v, ⟨g, ⟨?_, ?_⟩, v, hv, rfl⟩, rfl⟩
      · have hcount := hapart.count
        rwa [show front.length + (g.length + 1) - front.length - 1 = g.length by omega] at hcount
      · intro t ht
        obtain ⟨d, hd, rfl⟩ := List.getElem_of_mem ht
        refine hapart.between (front.length + (d + 1)) (by omega) (by omega) _ ?_
        rw [List.append_assoc, List.cons_append, getElem?_run front k _ hd,
          List.getElem?_eq_getElem hd]

theorem nil_notMem_single : [] ∉ single P := by
  rintro ⟨k, hk, -⟩
  cases hk

theorem nil_notMem_single_mul : [] ∉ single P * L := by
  rintro ⟨_, ⟨k, rfl, -⟩, v, -, h⟩
  cases h

/-! ## Two and three tokens -/

variable {A B C : Token → Prop}

theorem covers_pair :
    Covers (single A * (upTo bound Q * single B)) ts i j ↔ Near A B Q bound ts i j := by
  rw [covers_single_mul nil_notMem_single]
  constructor
  · rintro ⟨m, hi, hapart, hm⟩
    obtain ⟨rfl, hj⟩ := covers_single.1 hm
    exact ⟨hi, hapart, hj⟩
  · intro h
    exact ⟨j, h.first, h.apart, covers_single.2 ⟨rfl, h.second⟩⟩

theorem covers_triple :
    Covers (single A * (upTo bound Q * (single B * (upTo bound Q * single C)))) ts i j ↔
      ∃ m, Near A B Q bound ts i m ∧ Near B C Q bound ts m j := by
  rw [covers_single_mul nil_notMem_single_mul]
  constructor
  · rintro ⟨m, hi, hapart, hm⟩
    have hrest := covers_pair.1 hm
    exact ⟨m, ⟨hi, hapart, hrest.first⟩, hrest⟩
  · rintro ⟨m, hfirst, hrest⟩
    exact ⟨m, hfirst.first, hfirst.apart, covers_pair.2 hrest⟩

end Spans

/-! ## Sequences and expressions -/

variable {R : Reading} {ts : List Token} {i j : Nat}

theorem Sequence.language_pair (x y z : Item) :
    Sequence.language R [x, y, z] = x.language R * (y.language R * z.language R) := by
  simp [Sequence.language]

theorem Sequence.language_triple (u v x y z : Item) :
    Sequence.language R [u, v, x, y, z] =
      u.language R * (v.language R * (x.language R * (y.language R * z.language R))) := by
  simp [Sequence.language]

theorem covers_expression {e : Expression} :
    Covers (Expression.language R e) ts i j ↔ ∃ s ∈ e, Covers (Sequence.language R s) ts i j := by
  constructor
  · rintro ⟨hij, hj, s, hs, hw⟩
    exact ⟨s, hs, hij, hj, hw⟩
  · rintro ⟨s, hs, hij, hj, hw⟩
    exact ⟨hij, hj, s, hs, hw⟩

end Cql

/-- The meaning of a query is that of the expression which its texts are from. -/
theorem Query.Writes.language_eq {R : Reading} {q : Query} {e : Expression} (h : q.Writes e)
    (he : e.Plain) : q.language R = Expression.language R e := by
  have hread := (h.read_text he).1
  ext w
  constructor
  · rintro ⟨e', he', s, hs, hw⟩
    obtain rfl := Option.some.inj (hread.symm.trans he')
    exact ⟨s, mem_firstSeen.1 hs, hw⟩
  · rintro ⟨s, hs, hw⟩
    exact ⟨_, hread, s, mem_firstSeen.2 hs, hw⟩

/-- A query matches what the sequences of its expression do. -/
theorem Query.Writes.matchesSpan_iff {R : Reading} {q : Query} {e : Expression} (h : q.Writes e)
    (he : e.Plain) {ts : List Token} {i j : Nat} :
    q.MatchesSpan R ts i j ↔ ∃ s ∈ e, Covers (Sequence.language R s) ts i j := by
  rw [Query.MatchesSpan, h.language_eq he, covers_expression]

end Concordance
