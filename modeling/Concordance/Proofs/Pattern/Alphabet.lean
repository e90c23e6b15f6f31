import Concordance.Cql
import Concordance.Proofs.Pattern.Places
import Concordance.Proofs.Term
import Concordance.Proofs.Text.Pieces

/-!
# The characters of patterns

A pattern holds characters of its word, of the wildcards and of the spellings of the orthography,
and no others.

* `forall_mem_derive` — what holds of all those characters holds of every character of a pattern.
* `isPatternChar` — the characters of terms and wildcards; with the medieval orthography patterns
  of terms hold no others (`isPatternChar_of_mem_patterns`), so neither a quote nor a bar.
* `alternatives` — the parts of a value between its bars; of patterns side by side they are the
  patterns (`alternatives_alternation`).
-/

namespace Concordance

namespace Pattern

open Concordance.Text Concordance.Term

/-! ## Where the characters of a pattern come from -/

section Characters

variable {P : Char → Prop} {word : List Char}

theorem forall_mem_singleHoles {wildcard : List Char} (hcard : ∀ c ∈ wildcard, P c)
    (hword : ∀ c ∈ word, P c) : ∀ p ∈ singleHoles wildcard word, ∀ c ∈ p, P c := by
  intro p hp
  obtain ⟨u, c, v, rfl, rfl⟩ := mem_singleHoles.1 hp
  simp only [List.forall_mem_append, List.forall_mem_cons] at hword ⊢
  exact ⟨hword.1, hcard, hword.2.2⟩

theorem forall_mem_pairHoles {wildcard : List Char} (hcard : ∀ c ∈ wildcard, P c)
    (hword : ∀ c ∈ word, P c) : ∀ p ∈ pairHoles wildcard word, ∀ c ∈ p, P c := by
  intro p hp
  obtain ⟨u, c, v, d, x, rfl, rfl⟩ := mem_pairHoles.1 hp
  simp only [List.forall_mem_append, List.forall_mem_cons] at hword ⊢
  obtain ⟨hu, -, hv, -, hx⟩ := hword
  exact ⟨hu, hcard, hv, hcard, hx⟩

theorem forall_mem_respellings {key : List Char} {spellings : List (List Char)}
    (hspell : ∀ s ∈ spellings, ∀ c ∈ s, P c) (hword : ∀ c ∈ word, P c) :
    ∀ p ∈ respellings key spellings word, ∀ c ∈ p, P c := by
  intro p hp
  obtain ⟨spelling, hs, -, before, after, rfl, rfl⟩ := mem_respellings.1 hp
  simp only [List.forall_mem_append] at hword ⊢
  exact ⟨⟨hword.1.1, hspell spelling hs⟩, hword.2⟩

/-- Every character of a table's spellings has the property. -/
def TableWithin (P : Char → Prop) (table : Table) : Prop :=
  ∀ e ∈ table, ∀ s ∈ e.2, ∀ c ∈ s.toList, P c

theorem forall_mem_tableRespellings {table : Table} (htable : TableWithin P table)
    (hword : ∀ c ∈ word, P c) : ∀ p ∈ tableRespellings table word, ∀ c ∈ p, P c := by
  intro p hp
  obtain ⟨e, he, hp⟩ := List.mem_flatMap.1 hp
  refine forall_mem_respellings (fun s hs => ?_) hword p hp
  obtain ⟨t, ht, rfl⟩ := List.mem_map.1 hs
  exact htable e he t ht

/-- What holds of the word, the wildcards and the spellings holds of every pattern. -/
theorem forall_mem_derive {o : Orthography} (hone : ∀ c ∈ optionalLetter, P c)
    (hany : ∀ c ∈ anyLetters, P c) (hsub : TableWithin P o.substitutions)
    (hvow : TableWithin P o.vowels) (hword : ∀ c ∈ word, P c) (t : Strategy) :
    ∀ p ∈ derive o word t, ∀ c ∈ p, P c := by
  have hsimple : ∀ p ∈ derive o word .simple, ∀ c ∈ p, P c :=
    List.forall_mem_cons.2 ⟨hword, forall_mem_singleHoles hone hword⟩
  have hmedium : ∀ p ∈ derive o word .medium, ∀ c ∈ p, P c :=
    List.forall_mem_cons.2 ⟨hword, forall_mem_singleHoles hany hword⟩
  have hcomplex : ∀ p ∈ derive o word .complex, ∀ c ∈ p, P c :=
    List.forall_mem_cons.2 ⟨hword, forall_mem_pairHoles hany hword⟩
  have hhistorical : ∀ p ∈ derive o word .historical, ∀ c ∈ p, P c :=
    List.forall_mem_append.2
      ⟨List.forall_mem_cons.2 ⟨hword, forall_mem_tableRespellings hsub hword⟩,
        forall_mem_tableRespellings hvow hword⟩
  cases t with
  | simple => exact hsimple
  | medium => exact hmedium
  | complex => exact hcomplex
  | historical => exact hhistorical
  | combined =>
    intro p hp
    rw [derive_combined, List.mem_flatMap] at hp
    obtain ⟨t, ht, hp⟩ := hp
    simp only [Strategy.named, List.mem_cons, List.not_mem_nil, or_false] at ht
    rcases ht with rfl | rfl | rfl | rfl
    · exact hsimple p hp
    · exact hmedium p hp
    · exact hcomplex p hp
    · exact hhistorical p hp

end Characters

/-! ## Patterns of terms -/

/-- The characters of terms and of the wildcards. -/
def isPatternChar (c : Char) : Bool :=
  isTermChar c || c == '[' || c == ']' || c == '?' || c == '*'

theorem isPatternChar_of_isTermChar {c : Char} (h : isTermChar c = true) :
    isPatternChar c = true := by
  simp [isPatternChar, h]

theorem tableWithin_of_all {p : Char → Bool} {table : Table}
    (h : (table.all fun e => e.2.all fun s => s.toList.all p) = true) :
    TableWithin (fun c => p c = true) table := by
  intro e he s hs
  have hentry := List.all_eq_true.1 h e he
  have hspelling := List.all_eq_true.1 hentry s hs
  exact List.all_eq_true.1 hspelling

theorem medieval_within :
    TableWithin (fun c => isPatternChar c = true) medieval.substitutions ∧
      TableWithin (fun c => isPatternChar c = true) medieval.vowels :=
  ⟨tableWithin_of_all (by decide +kernel), tableWithin_of_all (by decide +kernel)⟩

theorem mem_patterns {o : Orthography} {t : Strategy} {word : String} {suffixed : Bool}
    {p : String} :
    p ∈ patterns o t word suffixed ↔
      word ≠ "" ∧ ∃ q ∈ derive o word.toList t, p = String.ofList (q ++ ending suffixed) := by
  unfold patterns
  split
  · rename_i h
    simp [h]
  · rename_i h
    simp [variants, h, eq_comm]

theorem isPatternChar_of_mem_patterns {t : Strategy} {word : String} {suffixed : Bool}
    (hword : IsTerm word) {p : String} (hp : p ∈ patterns medieval t word suffixed) :
    ∀ c ∈ p.toList, isPatternChar c = true := by
  obtain ⟨-, q, hq, rfl⟩ := mem_patterns.1 hp
  have hone : ∀ c ∈ optionalLetter, isPatternChar c = true := List.all_eq_true.1 (by decide)
  have hany : ∀ c ∈ anyLetters, isPatternChar c = true := List.all_eq_true.1 (by decide)
  rw [String.toList_ofList]
  refine List.forall_mem_append.2 ⟨?_, ?_⟩
  · exact forall_mem_derive hone hany medieval_within.1 medieval_within.2
      (fun c hc => isPatternChar_of_isTermChar (isTermChar_of_isTerm hword c hc)) t q hq
  · cases suffixed with
    | false => exact List.forall_mem_nil _
    | true => exact hany

theorem word_mem_derive (o : Orthography) (word : List Char) (t : Strategy) :
    word ∈ derive o word t := by
  cases t <;> simp [derive]

theorem patterns_ne_nil {o : Orthography} {t : Strategy} {word : String} {suffixed : Bool}
    (h : word ≠ "") : patterns o t word suffixed ≠ [] :=
  List.ne_nil_of_mem (mem_patterns.2 ⟨h, _, word_mem_derive o _ t, rfl⟩)

theorem notMem_of_mem_patterns {t : Strategy} {word : String} {suffixed : Bool}
    (hword : IsTerm word) {p : String} (hp : p ∈ patterns medieval t word suffixed) {c : Char}
    (hc : isPatternChar c = false) : c ∉ p.toList := by
  intro hmem
  rw [isPatternChar_of_mem_patterns hword hp c hmem] at hc
  cases hc

/-- The parts of a value between its bars. -/
def alternatives (value : String) : List String :=
  (pieces '|' value.toList).map String.ofList

/-- Patterns side by side are found again between the bars. -/
theorem alternatives_alternation {ps : List String} (hne : ps ≠ [])
    (h : ∀ p ∈ ps, '|' ∉ p.toList) : alternatives (Cql.alternation ps) = ps := by
  have hpieces : pieces '|' (Cql.alternation ps).toList = ps.map String.toList := by
    rw [Cql.alternation, String.toList_intercalate]
    refine pieces_intercalate (by simpa using hne) fun p hp => ?_
    obtain ⟨q, hq, rfl⟩ := List.mem_map.1 hp
    exact h q hq
  rw [alternatives, hpieces, List.map_map]
  simp [Function.comp_def]

/-- What holds of the bar and of every character of the patterns holds of all of them side by
side. -/
theorem forall_mem_alternation {P : Char → Prop} (hbar : P '|') {ps : List String}
    (h : ∀ p ∈ ps, ∀ c ∈ p.toList, P c) : ∀ c ∈ (Cql.alternation ps).toList, P c := by
  rw [Cql.alternation, String.toList_intercalate]
  refine forall_mem_intercalate (by simpa using hbar) fun p hp => ?_
  obtain ⟨q, hq, rfl⟩ := List.mem_map.1 hp
  exact h q hq

end Pattern

end Concordance
