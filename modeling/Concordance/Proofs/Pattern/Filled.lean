import Concordance.Proofs.Pattern.Alphabet

/-!
# No pattern is empty

A wildcard or a spelling takes the place of what is replaced, so a pattern of a word that is not
empty is not empty either, as long as the orthography has no empty spelling.

* `derive_ne_nil` — so it is for every strategy.
* `ne_empty_of_mem_patterns` — the medieval orthography has no empty spelling.
-/

namespace Concordance

namespace Pattern

theorem singleHoles_ne_nil {wildcard word p : List Char} (hcard : wildcard ≠ [])
    (h : p ∈ singleHoles wildcard word) : p ≠ [] := by
  obtain ⟨u, c, v, -, rfl⟩ := mem_singleHoles.1 h
  simp [hcard]

theorem pairHoles_ne_nil {wildcard word p : List Char} (hcard : wildcard ≠ [])
    (h : p ∈ pairHoles wildcard word) : p ≠ [] := by
  obtain ⟨u, c, v, d, x, -, rfl⟩ := mem_pairHoles.1 h
  simp [hcard]

theorem respellings_ne_nil {key word p : List Char} {spellings : List (List Char)}
    (hspell : ∀ s ∈ spellings, s ≠ []) (h : p ∈ respellings key spellings word) : p ≠ [] := by
  obtain ⟨spelling, hs, -, before, after, -, rfl⟩ := mem_respellings.1 h
  simp [hspell spelling hs]

/-- No spelling of a table is empty. -/
def TableFilled (table : Table) : Prop :=
  ∀ e ∈ table, ∀ s ∈ e.2, s ≠ ""

theorem tableRespellings_ne_nil {table : Table} {word p : List Char} (htable : TableFilled table)
    (h : p ∈ tableRespellings table word) : p ≠ [] := by
  obtain ⟨e, he, hp⟩ := List.mem_flatMap.1 h
  refine respellings_ne_nil (fun s hs => ?_) hp
  obtain ⟨t, ht, rfl⟩ := List.mem_map.1 hs
  simpa using htable e he t ht

theorem medieval_filled : TableFilled medieval.substitutions ∧ TableFilled medieval.vowels := by
  unfold TableFilled
  constructor <;> decide

theorem derive_ne_nil {o : Orthography} (hsub : TableFilled o.substitutions)
    (hvow : TableFilled o.vowels) {word p : List Char} (hword : word ≠ []) (t : Strategy)
    (h : p ∈ derive o word t) : p ≠ [] := by
  have hnamed : ∀ t ∈ Strategy.named, ∀ p ∈ derive o word t, p ≠ [] := by
    have hone : optionalLetter ≠ [] := by decide
    have hany : anyLetters ≠ [] := by decide
    simp only [Strategy.named, List.forall_mem_cons, derive, List.cons_append, List.mem_append]
    refine ⟨⟨hword, fun p => singleHoles_ne_nil hone⟩, ⟨hword, fun p => singleHoles_ne_nil hany⟩,
      ⟨hword, fun p => pairHoles_ne_nil hany⟩, ⟨hword, fun p hp => ?_⟩, List.forall_mem_nil _⟩
    rcases hp with hp | hp
    · exact tableRespellings_ne_nil hsub hp
    · exact tableRespellings_ne_nil hvow hp
  cases t with
  | combined =>
    rw [derive_combined, List.mem_flatMap] at h
    obtain ⟨t, ht, hp⟩ := h
    exact hnamed t ht p hp
  | simple | medium | complex | historical => exact hnamed _ (by decide) p h

theorem ne_empty_of_mem_patterns {t : Strategy} {word : String} {suffixed : Bool} {p : String}
    (h : p ∈ patterns medieval t word suffixed) : p ≠ "" := by
  obtain ⟨hword, q, hq, rfl⟩ := mem_patterns.1 h
  have hq' : q ≠ [] :=
    derive_ne_nil medieval_filled.1 medieval_filled.2 (by simpa using hword) t hq
  simp [hq']

end Pattern

end Concordance
