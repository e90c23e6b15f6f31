import Concordance.Proofs.Pattern.Ending
import Mathlib.Data.List.Nodup

/-!
# How many patterns a word has

Every wildcard begins with a bracket.  In a word without brackets the first one of a pattern
therefore tells where its first hole is, and the number of brackets tells how many holes it has: no
pattern comes twice, and strategies share nothing but the word itself.

* `nodup_singleHoles`, `nodup_pairHoles` — holes at different places give different patterns.
* `count_bracket_singleHole`, `count_bracket_pairHole` — each hole has its bracket.
* `length_combined` — all patterns together are those of the four strategies, with the word counted
  once.
* `pattern_sets_have_exact_sizes` — the main statement.
-/

namespace Concordance

namespace Pattern

/-! ## Holes at different places -/

section Holes

variable {marks marks' w p : List Char}

/-- What begins with a wildcard is nothing that begins with a character of the word. -/
theorem bracket_notMem_map_cons {c : Char} {q : List Char} {ps : List (List Char)} (hc : c ≠ '[') :
    '[' :: q ∉ ps.map (c :: ·) := by
  intro h
  obtain ⟨r, -, hr⟩ := List.mem_map.1 h
  exact hc (List.cons.inj hr).1

theorem nodup_map_cons {c : Char} {ps : List (List Char)} (h : ps.Nodup) :
    (ps.map (c :: ·)).Nodup :=
  h.map fun _ _ h => (List.cons.inj h).2

theorem nodup_singleHoles (hw : '[' ∉ w) : (singleHoles ('[' :: marks) w).Nodup := by
  induction w with
  | nil => exact List.nodup_nil
  | cons c rest ih =>
    rw [List.mem_cons, not_or] at hw
    rw [singleHoles, List.cons_append, List.nodup_cons]
    exact ⟨bracket_notMem_map_cons (Ne.symm hw.1), nodup_map_cons (ih hw.2)⟩

theorem nodup_pairHoles (hw : '[' ∉ w) : (pairHoles ('[' :: marks) w).Nodup := by
  induction w with
  | nil => exact List.nodup_nil
  | cons c rest ih =>
    rw [List.mem_cons, not_or] at hw
    rw [pairHoles, List.nodup_append']
    refine ⟨?_, nodup_map_cons (ih hw.2), ?_⟩
    · exact (nodup_singleHoles hw.2).map fun _ _ h => List.append_cancel_left h
    · intro p hfirst
      obtain ⟨q, -, rfl⟩ := List.mem_map.1 hfirst
      exact bracket_notMem_map_cons (Ne.symm hw.1)

/-- Wildcards that differ give different patterns. -/
theorem singleHoles_disjoint (hmarks : ∀ u v, marks ++ u ≠ marks' ++ v) (hw : '[' ∉ w) :
    List.Disjoint (singleHoles ('[' :: marks) w) (singleHoles ('[' :: marks') w) := by
  induction w with
  | nil => exact List.disjoint_nil_left _
  | cons c rest ih =>
    rw [List.mem_cons, not_or] at hw
    intro p hp hp'
    simp only [singleHoles, List.mem_cons, List.cons_append] at hp hp'
    rcases hp with rfl | hp
    · rcases hp' with h | hp'
      · exact hmarks _ _ (List.cons.inj h).2
      · exact bracket_notMem_map_cons (Ne.symm hw.1) hp'
    · rcases hp' with rfl | hp'
      · exact bracket_notMem_map_cons (Ne.symm hw.1) hp
      · obtain ⟨q, hq, rfl⟩ := List.mem_map.1 hp
        obtain ⟨q', hq', h⟩ := List.mem_map.1 hp'
        obtain rfl : q' = q := (List.cons.inj h).2
        exact ih hw.2 hq hq'

/-! ### Brackets -/

/-- Each hole has its bracket. -/
theorem count_bracket_singleHole (hw : '[' ∉ w) (hmarks : '[' ∉ marks)
    (hp : p ∈ singleHoles ('[' :: marks) w) : p.count '[' = 1 := by
  obtain ⟨u, c, v, rfl, rfl⟩ := mem_singleHoles.1 hp
  simp only [List.mem_append, List.mem_cons, not_or] at hw
  simp [List.count_eq_zero.2 hw.1, List.count_eq_zero.2 hw.2.2, List.count_eq_zero.2 hmarks]

theorem count_bracket_pairHole (hw : '[' ∉ w) (hmarks : '[' ∉ marks)
    (hp : p ∈ pairHoles ('[' :: marks) w) : p.count '[' = 2 := by
  obtain ⟨u, c, v, d, x, rfl, rfl⟩ := mem_pairHoles.1 hp
  simp only [List.mem_append, List.mem_cons, not_or] at hw
  obtain ⟨hu, -, hv, -, hx⟩ := hw
  simp [List.count_eq_zero.2 hu, List.count_eq_zero.2 hv, List.count_eq_zero.2 hx,
    List.count_eq_zero.2 hmarks]

end Holes

/-! ## Strategies side by side -/

/-- No spelling of the orthography has a bracket. -/
def BracketFree (o : Orthography) : Prop :=
  ∀ e ∈ o.substitutions ++ o.vowels, ∀ spelling ∈ e.2, '[' ∉ spelling.toList

section Strategies

variable {o : Orthography} {w p : List Char}

theorem count_bracket_historical (ho : BracketFree o) (hw : '[' ∉ w)
    (hp : p ∈ derive o w .historical) : p.count '[' = 0 := by
  have hword : ∀ c ∈ w, c ≠ '[' := fun c hc h => hw (h ▸ hc)
  have hwithin : ∀ table, (∀ e ∈ table, e ∈ o.substitutions ++ o.vowels) →
      TableWithin (· ≠ '[') table :=
    fun table hsub e he s hs c hc h => ho e (hsub e he) s hs (h ▸ hc)
  have hsub := hwithin o.substitutions fun e he => List.mem_append_left _ he
  have hvow := hwithin o.vowels fun e he => List.mem_append_right _ he
  have hother : ∀ c ∈ p, c ≠ '[' := by
    simp only [derive, List.mem_append, List.mem_cons] at hp
    rcases hp with (rfl | hp) | hp
    · exact hword
    · exact forall_mem_tableRespellings hsub hword p hp
    · exact forall_mem_tableRespellings hvow hword p hp
  exact List.count_eq_zero.2 fun h => hother _ h rfl

/-- The two ways to put one wildcard share the word itself and nothing else. -/
theorem eq_of_mem_simple_medium (hw : '[' ∉ w) (hmedium : p ∈ derive o w .medium)
    (hsimple : p ∈ derive o w .simple) : p = w := by
  rcases List.mem_cons.1 hsimple with h | hone
  · exact h
  rcases List.mem_cons.1 hmedium with h | hany
  · exact h
  have hmarks : ∀ u v, "A-z]?".toList ++ u ≠ "A-z]*".toList ++ v := by
    intro u v h
    simp at h
  exact (singleHoles_disjoint hmarks hw hone hany).elim

/-- A pattern with one hole has one bracket, unless it is the word itself. -/
theorem count_bracket_single (hw : '[' ∉ w) (hp : p ∈ derive o w .simple ++ derive o w .medium) :
    p = w ∨ p.count '[' = 1 := by
  rcases List.mem_append.1 hp with hp | hp
  · exact (List.mem_cons.1 hp).imp_right (count_bracket_singleHole hw (by decide))
  · exact (List.mem_cons.1 hp).imp_right (count_bracket_singleHole hw (by decide))

theorem count_bracket_complex (hw : '[' ∉ w) (hp : p ∈ derive o w .complex) :
    p = w ∨ p.count '[' = 2 :=
  (List.mem_cons.1 hp).imp_right (count_bracket_pairHole hw (by decide))

/-- All patterns together are those of the four strategies, with the word counted once. -/
theorem length_combined (ho : BracketFree o) (hw : '[' ∉ w) :
    (firstSeen (derive o w .combined)).length + 3 =
      (firstSeen (derive o w .simple)).length + (firstSeen (derive o w .medium)).length +
        (firstSeen (derive o w .complex)).length + (firstSeen (derive o w .historical)).length := by
  have hself := word_mem_derive o w
  have hsingle := List.mem_append_left (derive o w .medium) (hself .simple)
  have hholes := List.mem_append_left (derive o w .complex) hsingle
  -- The number of brackets tells the strategies apart: one, two or none.
  have hpairs : ∀ p ∈ derive o w .complex,
      p ∈ derive o w .simple ++ derive o w .medium → p = w := by
    intro p hpair hone
    rcases count_bracket_complex hw hpair with h | h2
    · exact h
    rcases count_bracket_single hw hone with h | h1
    · exact h
    omega
  have hlisted : ∀ p ∈ derive o w .historical,
      p ∈ derive o w .simple ++ derive o w .medium ++ derive o w .complex → p = w := by
    intro p hlisted hhole
    have h0 := count_bracket_historical ho hw hlisted
    rcases List.mem_append.1 hhole with hone | hpair
    · rcases count_bracket_single hw hone with h | h1
      · exact h
      · omega
    · rcases count_bracket_complex hw hpair with h | h2
      · exact h
      · omega
  have h1 := length_firstSeen_append (hself .simple) (hself .medium)
    fun p => eq_of_mem_simple_medium hw
  have h2 := length_firstSeen_append hsingle (hself .complex) hpairs
  have h3 := length_firstSeen_append hholes (hself .historical) hlisted
  have hparts : derive o w .combined =
      derive o w .simple ++ derive o w .medium ++ derive o w .complex ++ derive o w .historical :=
    rfl
  rw [hparts]
  omega

/-! ### Their sizes -/

theorem length_derive_complex (o : Orthography) (w : List Char) :
    (derive o w .complex).length = w.length * (w.length - 1) / 2 + 1 := by
  have hpairs := length_pairHoles anyLetters w
  rw [derive, List.length_cons]
  omega

theorem length_derive_single (o : Orthography) (w : List Char) :
    (derive o w .simple).length = w.length + 1 ∧ (derive o w .medium).length = w.length + 1 := by
  simp [derive]

/-- In a word without brackets, strategies that put wildcards give no pattern twice. -/
theorem nodup_derive (hw : '[' ∉ w) :
    (derive o w .simple).Nodup ∧ (derive o w .medium).Nodup ∧ (derive o w .complex).Nodup := by
  have hword : w.count '[' = 0 := List.count_eq_zero.2 hw
  refine ⟨List.nodup_cons.2 ⟨fun h => ?_, nodup_singleHoles hw⟩,
    List.nodup_cons.2 ⟨fun h => ?_, nodup_singleHoles hw⟩,
    List.nodup_cons.2 ⟨fun h => ?_, nodup_pairHoles hw⟩⟩
  · have h1 := count_bracket_singleHole hw (by decide) h
    omega
  · have h1 := count_bracket_singleHole hw (by decide) h
    omega
  · have h2 := count_bracket_pairHole hw (by decide) h
    omega

end Strategies

end Pattern

open Pattern

/-- **Pattern sets have exact sizes.**  Whatever the orthography, and with an ending or without, the
patterns of a word under any known strategy are distinct, and the first of them is the word with its
ending; the empty word has none.  One wildcard gives at most a pattern for each character, and two
at most one for each pair of characters, besides the word itself; in a word without brackets they
give just so many, and if no spelling has a bracket either, the strategies share the word only. -/
theorem pattern_sets_have_exact_sizes (o : Orthography) (word : String) (suffixed : Bool) :
    ∃ sets : Strategy → PatternSet,
      (∀ given t, Strategy.ofValue? given = some t →
        (Generator.ofOrthography o).patternSet word given suffixed = .ok (sets t)) ∧
      (word = "" → ∀ t, (sets t).patterns = []) ∧
      (word ≠ "" → ∀ t,
        (sets t).patterns.Nodup ∧ (sets t).patterns.head? = some (sets t).literal) ∧
      let n := word.length
      let size t := (sets t).patterns.length
      size .simple ≤ n + 1 ∧ size .medium ≤ n + 1 ∧ size .complex ≤ n * (n - 1) / 2 + 1 ∧
      (word ≠ "" → '[' ∉ word.toList →
        size .simple = n + 1 ∧ size .medium = n + 1 ∧ size .complex = n * (n - 1) / 2 + 1 ∧
        (BracketFree o →
          size .combined + 3 =
            size .simple + size .medium + size .complex + size .historical)) := by
  refine ⟨fun t => ⟨word, t, patterns o t word suffixed, suffixed⟩, ?_, ?_, ?_, ?_⟩
  · intro given t h
    exact Generator.patternSet_ofOrthography h o word suffixed
  · rintro rfl t
    rfl
  · intro hword t
    exact ⟨nodup_patterns, head?_patterns hword⟩
  · intro n size
    have hn : n = word.toList.length := String.length_toList.symm
    have hle : ∀ t, size t ≤ (derive o word.toList t).length := fun t => length_patterns_le
    obtain ⟨hsimple, hmedium⟩ := length_derive_single o word.toList
    have hcomplex := length_derive_complex o word.toList
    rw [← hn] at hsimple hmedium hcomplex
    refine ⟨hsimple ▸ hle .simple, hmedium ▸ hle .medium, hcomplex ▸ hle .complex, ?_⟩
    intro hword hw
    have hsize : ∀ t, size t = (firstSeen (derive o word.toList t)).length :=
      fun t => length_patterns hword
    obtain ⟨hdistinct1, hdistinct2, hdistinct3⟩ := nodup_derive (o := o) hw
    refine ⟨?_, ?_, ?_, fun ho => ?_⟩
    · rw [hsize, firstSeen_eq_self hdistinct1, hsimple]
    · rw [hsize, firstSeen_eq_self hdistinct2, hmedium]
    · rw [hsize, firstSeen_eq_self hdistinct3, hcomplex]
    · simp only [hsize]
      exact length_combined ho hw

/-- Of `aba`, whose letter `a` comes twice, no pattern is lost: with endings it has four simple
patterns, four medium and four complex ones, which share only the word. -/
theorem repeated_letters_keep_their_patterns :
    let custom : Orthography := { name := "custom", substitutions := [("", ["b"])] }
    "aba" ≠ "" ∧ '[' ∉ "aba".toList ∧ BracketFree custom ∧
    ∃ sets : Strategy → PatternSet,
      (Generator.ofOrthography custom).patternSet "aba" (.text " ALL ") true =
        .ok (sets .combined) ∧
      (sets .complex).patterns.length = 4 ∧
      (sets .combined).patterns.length = 9 + (sets .historical).patterns.length := by
  intro custom
  have hword : "aba" ≠ "" := by decide
  have hw : '[' ∉ "aba".toList := by decide
  have ho : BracketFree custom := by unfold BracketFree; decide +kernel
  obtain ⟨sets, hsets, -, -, -, -, -, hexact⟩ := pattern_sets_have_exact_sizes custom "aba" true
  obtain ⟨hsimple, hmedium, hcomplex, hcombined⟩ := hexact hword hw
  have htotal := hcombined ho
  rw [show "aba".length = 3 from rfl] at hsimple hmedium hcomplex
  dsimp only at hsimple hmedium hcomplex htotal
  exact ⟨hword, hw, ho, sets, hsets _ _ (by decide +kernel), hcomplex, by omega⟩

end Concordance
