import Concordance.Proofs.Pattern.Spelling

/-!
# What the patterns of a strategy match

The patterns of a term are read over whole words.  A pattern with a hole matches the words in which
something stands in the hole, and nothing else of the term changes.

* `Spells` — a text accepts the words of a language, whatever comes after it.
* `IsRun`, `OneLetterApart`, `OneRunApart`, `TwoRunsApart` — words with something in the holes.
* `Matched` — the words that a strategy is meant to match.
* `patterns_match_exactly` — its patterns match these words and no others.
-/

namespace Concordance

namespace Pattern

open Concordance.Term

/-! ## Texts that no mark follows -/

/-- The text begins with no mark, which would belong to what stands before it. -/
def Unmarked (q : List Char) : Prop :=
  ∀ c rest, q = c :: rest → c ≠ '?' ∧ c ≠ '*'

/-- The text accepts the words of a language, as long as no mark follows it. -/
structure Spells (p : List Char) (L : Language Char) : Prop where
  unmarked : ∀ q, Unmarked q → Unmarked (p ++ q)
  spellings_append : ∀ q, Unmarked q → spellings (symbols (p ++ q)) = L * spellings (symbols q)

theorem unmarked_nil : Unmarked [] := by
  intro c rest h
  cases h

theorem Spells.spellings_eq {p : List Char} {L : Language Char} (h : Spells p L) :
    spellings (symbols p) = L := by
  have hend := h.spellings_append [] unmarked_nil
  have hone : spellings (symbols []) = 1 := rfl
  rwa [List.append_nil, hone, mul_one] at hend

theorem spells_nil : Spells [] 1 :=
  ⟨fun _ hq => hq, fun _ _ => (one_mul _).symm⟩

theorem Spells.append {p q : List Char} {L M : Language Char} (hp : Spells p L)
    (hq : Spells q M) : Spells (p ++ q) (L * M) where
  unmarked := by
    intro r hr
    rw [List.append_assoc]
    exact hp.unmarked _ (hq.unmarked r hr)
  spellings_append := by
    intro r hr
    rw [List.append_assoc, hp.spellings_append _ (hq.unmarked r hr), hq.spellings_append r hr,
      mul_assoc]

/-- The parts of a text without a mark before it begin with an atom, if there are any. -/
theorem symbols_of_unmarked {q : List Char} (hq : Unmarked q) :
    symbols q = [] ∨ ∃ a rest, symbols q = .atom a :: rest := by
  fun_cases symbols q with
  | case1 rest => exact .inr ⟨.letter, symbols rest, rfl⟩
  | case2 rest => exact absurd rfl (hq '?' rest rfl).1
  | case3 rest => exact absurd rfl (hq '*' rest rfl).2
  | case4 c rest => exact .inr ⟨.literal c, symbols rest, rfl⟩
  | case5 => exact .inl rfl

/-- An atom stands alone where no mark follows it. -/
theorem spellings_atom (a : Atom) {q : List Char} (hq : Unmarked q) :
    spellings (.atom a :: symbols q) = a.language * spellings (symbols q) := by
  rcases symbols_of_unmarked hq with hs | ⟨b, rest, hs⟩
  · rw [hs]
    rfl
  · rw [hs]
    rfl

theorem spells_literal {c : Char} (h : isLiteral c = true) : Spells [c] {[c]} where
  unmarked := by
    intro q _ d rest hd
    obtain rfl : c = d := (List.cons.inj hd).1
    simp only [isLiteral, ne_eq, decide_not, Bool.and_eq_true, Bool.not_eq_true',
      decide_eq_false_iff_not] at h
    exact ⟨h.1.2, h.2⟩
  spellings_append := by
    intro q hq
    rw [List.singleton_append, symbols_literal h, spellings_atom _ hq]
    rfl

/-- A word whose characters stand for themselves accepts itself. -/
theorem spells_word {w : List Char} (h : ∀ c ∈ w, isLiteral c = true) : Spells w {w} := by
  induction w with
  | nil => exact spells_nil
  | cons c rest ih =>
    rw [List.forall_mem_cons] at h
    have hword : ({[c]} * {rest} : Language Char) = {c :: rest} := Set.image2_singleton
    have hspells := (spells_literal h.1).append (ih h.2)
    rwa [hword] at hspells

/-! ## Wildcards -/

/-- The runs of letters. -/
def IsRun (r : List Char) : Prop :=
  ∀ c ∈ r, isLetter c = true

theorem unmarked_bracket (q : List Char) : Unmarked ('[' :: q) := by
  intro c rest h
  obtain rfl : '[' = c := (List.cons.inj h).1
  decide

/-- The wildcard of one letter accepts a letter or nothing. -/
theorem spells_optionalLetter : Spells optionalLetter (1 + Atom.letter.language) :=
  ⟨fun _ _ => unmarked_bracket _, fun _ _ => rfl⟩

/-- The wildcard of many letters accepts the runs of letters. -/
theorem spells_anyLetters : Spells anyLetters (KStar.kstar Atom.letter.language) :=
  ⟨fun _ _ => unmarked_bracket _, fun _ _ => rfl⟩

theorem mem_optional_iff {r : List Char} :
    r ∈ 1 + Atom.letter.language ↔ r = [] ∨ ∃ d, isLetter d = true ∧ r = [d] :=
  Iff.rfl

theorem mem_run_iff {r : List Char} : r ∈ KStar.kstar Atom.letter.language ↔ IsRun r := by
  constructor
  · rintro ⟨letters, rfl, hletters⟩ c hc
    obtain ⟨l, hl, hcl⟩ := List.mem_flatten.1 hc
    obtain ⟨d, hd, rfl⟩ := hletters l hl
    rwa [List.mem_singleton.1 hcl]
  · intro hr
    refine ⟨r.map fun c => [c], (List.flatMap_singleton' r).symm, ?_⟩
    intro l hl
    obtain ⟨c, hc, rfl⟩ := List.mem_map.1 hl
    exact ⟨c, hr c hc, rfl⟩

/-! ## Words between holes -/

section Words

variable {u t : List Char} {W M : Language Char}

theorem mem_word_mul : t ∈ {u} * M ↔ ∃ r ∈ M, t = u ++ r := by
  rw [Language.mem_mul]
  constructor
  · rintro ⟨_, rfl, r, hr, rfl⟩
    exact ⟨r, hr, rfl⟩
  · rintro ⟨r, hr, rfl⟩
    exact ⟨u, rfl, r, hr, rfl⟩

theorem mem_hole_iff : t ∈ {u} * (W * M) ↔ ∃ r ∈ W, ∃ v ∈ M, t = u ++ r ++ v := by
  rw [mem_word_mul]
  constructor
  · rintro ⟨y, hy, rfl⟩
    obtain ⟨r, hr, v, hv, rfl⟩ := Language.mem_mul.1 hy
    exact ⟨r, hr, v, hv, (List.append_assoc u r v).symm⟩
  · rintro ⟨r, hr, v, hv, rfl⟩
    exact ⟨r ++ v, Language.mem_mul.2 ⟨r, hr, v, hv, rfl⟩, List.append_assoc u r v⟩

/-- A word, a wildcard and something after it. -/
theorem spells_hole {wildcard q : List Char} (hu : ∀ c ∈ u, isLiteral c = true)
    (hcard : Spells wildcard W) (hq : Spells q M) :
    Spells (u ++ (wildcard ++ q)) ({u} * (W * M)) :=
  (spells_word hu).append (hcard.append hq)

end Words

/-! ## The words that are meant -/

/-- One character of the word is left out or gives way to one letter. -/
def OneLetterApart (w t : List Char) : Prop :=
  ∃ u c v, w = u ++ c :: v ∧ (t = u ++ v ∨ ∃ d, isLetter d = true ∧ t = u ++ d :: v)

/-- One character of the word gives way to a run of letters. -/
def OneRunApart (w t : List Char) : Prop :=
  ∃ u c v r, w = u ++ c :: v ∧ IsRun r ∧ t = u ++ r ++ v

/-- Two characters of the word, each at its own place, give way to runs of letters. -/
def TwoRunsApart (w t : List Char) : Prop :=
  ∃ u c v d x r s, w = u ++ c :: v ++ d :: x ∧ IsRun r ∧ IsRun s ∧ t = u ++ r ++ v ++ s ++ x

/-- The words that the patterns of a strategy are meant to match. -/
def Matched : Strategy → String → String → Prop
  | .simple, word, t => t = word ∨ OneLetterApart word.toList t.toList
  | .medium, word, t => t = word ∨ OneRunApart word.toList t.toList
  | .complex, word, t => t = word ∨ TwoRunsApart word.toList t.toList
  | .historical, word, t => t ∈ patterns medieval .historical word false
  | .combined, word, t =>
    t = word ∨ OneLetterApart word.toList t.toList ∨ OneRunApart word.toList t.toList ∨
      TwoRunsApart word.toList t.toList ∨ t ∈ patterns medieval .historical word false

/-! ## The words that are matched -/

section Derived

variable {wildcard w p t : List Char} {W : Language Char}

theorem spells_singleHole (hw : ∀ c ∈ w, isLiteral c = true) (hcard : Spells wildcard W)
    (hp : p ∈ singleHoles wildcard w) : ∃ L, Spells p L := by
  obtain ⟨u, c, v, rfl, rfl⟩ := mem_singleHoles.1 hp
  rw [List.forall_mem_append, List.forall_mem_cons] at hw
  exact ⟨_, spells_hole hw.1 hcard (spells_word hw.2.2)⟩

theorem spells_pairHole (hw : ∀ c ∈ w, isLiteral c = true) (hcard : Spells wildcard W)
    (hp : p ∈ pairHoles wildcard w) : ∃ L, Spells p L := by
  obtain ⟨u, c, v, d, x, rfl, rfl⟩ := mem_pairHoles.1 hp
  simp only [List.forall_mem_append, List.forall_mem_cons] at hw
  obtain ⟨hu, -, hv, -, hx⟩ := hw
  exact ⟨_, spells_hole hu hcard (spells_hole hv hcard (spells_word hx))⟩

theorem exists_singleHole_iff (hw : ∀ c ∈ w, isLiteral c = true) (hcard : Spells wildcard W) :
    (∃ p ∈ singleHoles wildcard w, t ∈ spellings (symbols p)) ↔
      ∃ u c v r, w = u ++ c :: v ∧ r ∈ W ∧ t = u ++ r ++ v := by
  have hhole : ∀ u c v, w = u ++ c :: v →
      spellings (symbols (u ++ (wildcard ++ v))) = {u} * (W * {v}) := by
    rintro u c v rfl
    rw [List.forall_mem_append, List.forall_mem_cons] at hw
    exact (spells_hole hw.1 hcard (spells_word hw.2.2)).spellings_eq
  constructor
  · rintro ⟨p, hp, ht⟩
    obtain ⟨u, c, v, hsplit, rfl⟩ := mem_singleHoles.1 hp
    rw [hhole u c v hsplit, mem_hole_iff] at ht
    obtain ⟨r, hr, y, hy, rfl⟩ := ht
    obtain rfl : v = y := hy.symm
    exact ⟨u, c, v, r, hsplit, hr, rfl⟩
  · rintro ⟨u, c, v, r, hsplit, hr, rfl⟩
    refine ⟨_, mem_singleHoles.2 ⟨u, c, v, hsplit, rfl⟩, ?_⟩
    rw [hhole u c v hsplit, mem_hole_iff]
    exact ⟨r, hr, v, rfl, rfl⟩

theorem exists_pairHole_iff (hw : ∀ c ∈ w, isLiteral c = true) (hcard : Spells wildcard W) :
    (∃ p ∈ pairHoles wildcard w, t ∈ spellings (symbols p)) ↔
      ∃ u c v d x r s, w = u ++ c :: v ++ d :: x ∧ r ∈ W ∧ s ∈ W ∧
        t = u ++ r ++ v ++ s ++ x := by
  have hholes : ∀ u c v d x, w = u ++ c :: (v ++ d :: x) →
      spellings (symbols (u ++ (wildcard ++ (v ++ (wildcard ++ x))))) =
        {u} * (W * ({v} * (W * {x}))) := by
    rintro u c v d x rfl
    simp only [List.forall_mem_append, List.forall_mem_cons] at hw
    obtain ⟨hu, -, hv, -, hx⟩ := hw
    exact (spells_hole hu hcard (spells_hole hv hcard (spells_word hx))).spellings_eq
  constructor
  · rintro ⟨p, hp, ht⟩
    obtain ⟨u, c, v, d, x, hsplit, rfl⟩ := mem_pairHoles.1 hp
    rw [hholes u c v d x hsplit, mem_hole_iff] at ht
    obtain ⟨r, hr, y, hy, rfl⟩ := ht
    obtain ⟨s, hs, z, hz, rfl⟩ := mem_hole_iff.1 hy
    obtain rfl : x = z := hz.symm
    refine ⟨u, c, v, d, x, r, s, ?_, hr, hs, ?_⟩
    · simpa using hsplit
    · simp
  · rintro ⟨u, c, v, d, x, r, s, hsplit, hr, hs, rfl⟩
    have hsplit' : w = u ++ c :: (v ++ d :: x) := by simpa using hsplit
    refine ⟨_, mem_pairHoles.2 ⟨u, c, v, d, x, hsplit', rfl⟩, ?_⟩
    rw [hholes u c v d x hsplit', mem_hole_iff]
    refine ⟨r, hr, v ++ s ++ x, mem_hole_iff.2 ⟨s, hs, x, rfl, rfl⟩, ?_⟩
    simp

/-- Respellings of a word by the medieval orthography have no marks. -/
theorem isLiteral_of_respelling (hw : ∀ c ∈ w, isLiteral c = true)
    (hp : p ∈ derive medieval w .historical) : ∀ c ∈ p, isLiteral c = true := by
  have hsub : TableWithin (fun c => isLiteral c = true) medieval.substitutions :=
    tableWithin_of_all (by decide +kernel)
  have hvow : TableWithin (fun c => isLiteral c = true) medieval.vowels :=
    tableWithin_of_all (by decide +kernel)
  simp only [derive, List.mem_append, List.mem_cons] at hp
  rcases hp with (rfl | hp) | hp
  · exact hw
  · exact forall_mem_tableRespellings hsub hw p hp
  · exact forall_mem_tableRespellings hvow hw p hp

/-- Every pattern is read alike whatever comes after it. -/
theorem spells_derived (hw : ∀ c ∈ w, isLiteral c = true) {s : Strategy}
    (hp : p ∈ derive medieval w s) : ∃ L, Spells p L := by
  have hword : ∃ L, Spells w L := ⟨_, spells_word hw⟩
  have hnamed : ∀ s ∈ Strategy.named, p ∈ derive medieval w s → ∃ L, Spells p L := by
    intro s hs hp
    simp only [Strategy.named, List.mem_cons, List.not_mem_nil, or_false] at hs
    rcases hs with rfl | rfl | rfl | rfl
    · rcases List.mem_cons.1 hp with rfl | hp
      · exact hword
      · exact spells_singleHole hw spells_optionalLetter hp
    · rcases List.mem_cons.1 hp with rfl | hp
      · exact hword
      · exact spells_singleHole hw spells_anyLetters hp
    · rcases List.mem_cons.1 hp with rfl | hp
      · exact hword
      · exact spells_pairHole hw spells_anyLetters hp
    · exact ⟨_, spells_word (isLiteral_of_respelling hw hp)⟩
  cases s with
  | combined =>
    rw [derive_combined, List.mem_flatMap] at hp
    obtain ⟨s, hs, hp⟩ := hp
    exact hnamed s hs hp
  | simple | medium | complex | historical => exact hnamed _ (by decide) hp

end Derived

/-! ### One strategy after the other -/

section Strategies

variable {word token : String}

theorem mem_word_iff (hw : ∀ c ∈ word.toList, isLiteral c = true) :
    token.toList ∈ spellings (symbols word.toList) ↔ token = word := by
  rw [(spells_word hw).spellings_eq]
  exact String.toList_inj

theorem exists_simple_iff (hw : ∀ c ∈ word.toList, isLiteral c = true) :
    (∃ p ∈ derive medieval word.toList .simple, token.toList ∈ spellings (symbols p)) ↔
      Matched .simple word token := by
  simp only [derive, List.exists_mem_cons_iff, mem_word_iff hw,
    exists_singleHole_iff hw spells_optionalLetter, Matched]
  apply or_congr_right
  constructor
  · rintro ⟨u, c, v, r, hsplit, hr, ht⟩
    refine ⟨u, c, v, hsplit, ?_⟩
    rcases mem_optional_iff.1 hr with rfl | ⟨d, hd, rfl⟩
    · exact .inl (by simpa using ht)
    · exact .inr ⟨d, hd, by simpa using ht⟩
  · rintro ⟨u, c, v, hsplit, ht | ⟨d, hd, ht⟩⟩
    · exact ⟨u, c, v, [], hsplit, mem_optional_iff.2 (.inl rfl), by simpa using ht⟩
    · exact ⟨u, c, v, [d], hsplit, mem_optional_iff.2 (.inr ⟨d, hd, rfl⟩), by simpa using ht⟩

theorem exists_medium_iff (hw : ∀ c ∈ word.toList, isLiteral c = true) :
    (∃ p ∈ derive medieval word.toList .medium, token.toList ∈ spellings (symbols p)) ↔
      Matched .medium word token := by
  simp only [derive, List.exists_mem_cons_iff, mem_word_iff hw,
    exists_singleHole_iff hw spells_anyLetters, mem_run_iff, Matched, OneRunApart]

theorem exists_complex_iff (hw : ∀ c ∈ word.toList, isLiteral c = true) :
    (∃ p ∈ derive medieval word.toList .complex, token.toList ∈ spellings (symbols p)) ↔
      Matched .complex word token := by
  simp only [derive, List.exists_mem_cons_iff, mem_word_iff hw,
    exists_pairHole_iff hw spells_anyLetters, mem_run_iff, Matched, TwoRunsApart]

/-- A respelling accepts itself. -/
theorem exists_historical_iff (hne : word ≠ "") (hw : ∀ c ∈ word.toList, isLiteral c = true) :
    (∃ p ∈ derive medieval word.toList .historical, token.toList ∈ spellings (symbols p)) ↔
      Matched .historical word token := by
  rw [Matched, mem_patterns]
  constructor
  · rintro ⟨p, hp, ht⟩
    rw [(spells_word (isLiteral_of_respelling hw hp)).spellings_eq] at ht
    obtain rfl : p = token.toList := ht.symm
    exact ⟨hne, token.toList, hp, by simp [ending]⟩
  · rintro ⟨-, p, hp, rfl⟩
    refine ⟨p, hp, ?_⟩
    rw [(spells_word (isLiteral_of_respelling hw hp)).spellings_eq, String.toList_ofList]
    exact List.append_nil p

/-- The words that the patterns of a strategy accept, without an ending. -/
theorem exists_derived_iff (hne : word ≠ "") (hw : ∀ c ∈ word.toList, isLiteral c = true)
    (s : Strategy) :
    (∃ p ∈ derive medieval word.toList s, token.toList ∈ spellings (symbols p)) ↔
      Matched s word token := by
  cases s with
  | simple => exact exists_simple_iff hw
  | medium => exact exists_medium_iff hw
  | complex => exact exists_complex_iff hw
  | historical => exact exists_historical_iff hne hw
  | combined =>
    have hparts : (∃ p ∈ derive medieval word.toList .combined,
        token.toList ∈ spellings (symbols p)) ↔
        ∃ s ∈ Strategy.named, ∃ p ∈ derive medieval word.toList s,
          token.toList ∈ spellings (symbols p) := by
      simp only [derive_combined, List.mem_flatMap]
      constructor
      · rintro ⟨p, ⟨s, hs, hp⟩, ht⟩
        exact ⟨s, hs, p, hp, ht⟩
      · rintro ⟨s, hs, p, hp, ht⟩
        exact ⟨p, ⟨s, hs, hp⟩, ht⟩
    rw [hparts]
    simp only [Strategy.named, List.exists_mem_cons_iff, List.not_mem_nil, false_and, exists_false,
      or_false, exists_simple_iff hw, exists_medium_iff hw, exists_complex_iff hw,
      exists_historical_iff hne hw, Matched]
    tauto

/-- Some pattern of a term accepts a word. -/
theorem accepts_patterns_iff (hword : IsTerm word) (s : Strategy) (suffixed : Bool) :
    Accepts (Cql.alternation (patterns medieval s word suffixed)) token ↔
      ∃ p ∈ derive medieval word.toList s,
        token.toList ∈ spellings (symbols (p ++ ending suffixed)) := by
  have hbar : ∀ p ∈ patterns medieval s word suffixed, '|' ∉ p.toList :=
    fun p hp => notMem_of_mem_patterns hword hp (by decide)
  have hparts := alternatives_alternation (patterns_ne_nil hword.ne_empty) hbar
  unfold Accepts
  rw [hparts]
  constructor
  · rintro ⟨p, hp, ht⟩
    obtain ⟨-, q, hq, rfl⟩ := mem_patterns.1 hp
    rw [language, String.toList_ofList] at ht
    exact ⟨q, hq, ht⟩
  · rintro ⟨q, hq, ht⟩
    refine ⟨_, mem_patterns.2 ⟨hword.ne_empty, q, hq, rfl⟩, ?_⟩
    rw [language, String.toList_ofList]
    exact ht

/-- Some pattern with an ending accepts a word that it accepts without one, and then a run. -/
theorem exists_suffixed_iff (hw : ∀ c ∈ word.toList, isLiteral c = true) (s : Strategy) :
    (∃ p ∈ derive medieval word.toList s, token.toList ∈ spellings (symbols (p ++ anyLetters))) ↔
      ∃ stem tail : String, token = stem ++ tail ∧ IsRun tail.toList ∧
        ∃ p ∈ derive medieval word.toList s, stem.toList ∈ spellings (symbols p) := by
  have hending : ∀ p ∈ derive medieval word.toList s, ∀ t,
      t ∈ spellings (symbols (p ++ anyLetters)) ↔
        ∃ a ∈ spellings (symbols p), ∃ b, IsRun b ∧ a ++ b = t := by
    intro p hp t
    obtain ⟨L, hL⟩ := spells_derived hw hp
    rw [(hL.append spells_anyLetters).spellings_eq, hL.spellings_eq, Language.mem_mul]
    simp only [mem_run_iff]
  constructor
  · rintro ⟨p, hp, ht⟩
    obtain ⟨a, ha, b, hb, hab⟩ := (hending p hp _).1 ht
    refine ⟨String.ofList a, String.ofList b, ?_, by simpa using hb, p, hp, by simpa using ha⟩
    rw [← String.toList_inj]
    simp [hab]
  · rintro ⟨stem, tail, rfl, htail, p, hp, hstem⟩
    refine ⟨p, hp, (hending p hp _).2 ⟨stem.toList, hstem, tail.toList, htail, ?_⟩⟩
    exact String.toList_append.symm

/-- A word of fewer than two characters has no two places. -/
theorem not_twoRunsApart {w t : List Char} (hw : w.length < 2) : ¬ TwoRunsApart w t := by
  rintro ⟨u, c, v, d, x, r, s, rfl, -⟩
  simp only [List.length_append, List.length_cons] at hw
  omega

end Strategies

end Pattern

open Pattern

/-- **The patterns of a term match exactly the words that their strategy means.**  Whatever was
typed, if a term is left of it, each strategy gives patterns of which some match a word exactly when
the word is the term with what the strategy allows in its holes, or is listed; with an ending, when
a run of letters follows such a word.  A term of one character has no pattern with two holes. -/
theorem patterns_match_exactly (typed : Value) (hterm : Term.clean typed ≠ "") (s : Strategy) :
    (∃ ps, (Generator.ofOrthography medieval).generate (Term.clean typed) s false = .ok ps ∧
      ∀ token, Accepts (Cql.alternation ps) token ↔ Matched s (Term.clean typed) token) ∧
    (∃ ps, (Generator.ofOrthography medieval).generate (Term.clean typed) s true = .ok ps ∧
      ∀ token, Accepts (Cql.alternation ps) token ↔
        ∃ stem tail : String, token = stem ++ tail ∧ IsRun tail.toList ∧
          Matched s (Term.clean typed) stem) ∧
    ((Term.clean typed).length < 2 →
      ∀ token, Matched .complex (Term.clean typed) token ↔ token = Term.clean typed) := by
  have hword : Term.IsTerm (Term.clean typed) := Term.isTerm_clean hterm
  have hw : ∀ c ∈ (Term.clean typed).toList, isLiteral c = true :=
    fun c hc => isLiteral_of_isTermChar (Term.isTermChar_of_isTerm hword c hc)
  refine ⟨⟨_, rfl, fun token => ?_⟩, ⟨_, rfl, fun token => ?_⟩, fun hshort token => ?_⟩
  · rw [accepts_patterns_iff hword]
    simp only [ending, Bool.false_eq_true, if_false, List.append_nil]
    exact exists_derived_iff hterm hw s
  · rw [accepts_patterns_iff hword]
    simp only [ending, if_true]
    rw [exists_suffixed_iff hw]
    simp only [exists_derived_iff hterm hw]
  · rw [← String.length_toList] at hshort
    rw [Matched]
    exact or_iff_left (not_twoRunsApart hshort)

/-- Of `ti`, all patterns together match the empty word, with a run of no letters in each of the two
holes, and with an ending also `cibus`, the respelling `ci` with a run of letters after it. -/
theorem respelling_with_tail_matches :
    let typed : Value := .text " t!i "
    Term.clean typed ≠ "" ∧
    (∃ ps, (Generator.ofOrthography medieval).generate (Term.clean typed) .combined false = .ok ps ∧
      Accepts (Cql.alternation ps) "") ∧
    ∃ ps, (Generator.ofOrthography medieval).generate (Term.clean typed) .combined true = .ok ps ∧
      Accepts (Cql.alternation ps) "cibus" := by
  intro typed
  have hterm : Term.clean typed = "ti" := by decide +kernel
  have hne : Term.clean typed ≠ "" := by rw [hterm]; decide
  obtain ⟨⟨ps, hps, hplain⟩, ⟨qs, hqs, hsuffixed⟩, -⟩ := patterns_match_exactly typed hne .combined
  refine ⟨hne, ⟨ps, hps, (hplain "").2 ?_⟩, qs, hqs, (hsuffixed "cibus").2 ?_⟩
  · have hholes : TwoRunsApart "ti".toList "".toList :=
      ⟨[], 't', [], 'i', [], [], [], rfl, List.forall_mem_nil _, List.forall_mem_nil _, rfl⟩
    rw [hterm]
    exact .inr (.inr (.inr (.inl hholes)))
  · have hrun : IsRun "bus".toList := List.all_eq_true.1 rfl
    have hlisted : "ci" ∈ patterns medieval .historical "ti" false := by decide +kernel
    rw [hterm]
    exact ⟨"ci", "bus", rfl, hrun, .inr (.inr (.inr (.inr hlisted)))⟩

end Concordance
