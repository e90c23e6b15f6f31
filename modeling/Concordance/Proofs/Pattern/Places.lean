import Concordance.Pattern

/-!
# Where a word is changed

A pattern is the word with something else in the place of one character, of two characters, or of
one occurrence of a key.  What stands before and after it is kept.

* `mem_singleHoles`, `mem_pairHoles` — where the holes of a pattern are.
* `places` — the places at which a key begins, in increasing order.
* `Search` — the finds of a search that starts anew one place after each find; it ends with all
  the places and no others (`search_iff`).
* `respellings_eq` — the respellings of a word, one place after the other.
* `mem_respellings` — where the respelled occurrence is.
-/

namespace Concordance

namespace Pattern

/-! ## Holes -/

section Holes

variable {wildcard w p : List Char}

/-- One hole stands in the place of one character. -/
theorem mem_singleHoles :
    p ∈ singleHoles wildcard w ↔ ∃ u c v, w = u ++ c :: v ∧ p = u ++ (wildcard ++ v) := by
  induction w generalizing p with
  | nil => simp [singleHoles]
  | cons d rest ih =>
    simp only [singleHoles, List.mem_cons, List.mem_map]
    constructor
    · rintro (rfl | ⟨q, hq, rfl⟩)
      · exact ⟨[], d, rest, rfl, rfl⟩
      · obtain ⟨u, c, v, rfl, rfl⟩ := ih.1 hq
        exact ⟨d :: u, c, v, rfl, rfl⟩
    · rintro ⟨u, c, v, hw, rfl⟩
      cases u with
      | nil =>
        obtain ⟨rfl, rfl⟩ := List.cons.inj hw
        exact .inl rfl
      | cons e u =>
        obtain ⟨rfl, hrest⟩ := List.cons.inj hw
        exact .inr ⟨_, ih.2 ⟨u, c, v, hrest, rfl⟩, rfl⟩

/-- Two holes stand in the places of two characters. -/
theorem mem_pairHoles :
    p ∈ pairHoles wildcard w ↔ ∃ u c v d x, w = u ++ c :: (v ++ d :: x) ∧
      p = u ++ (wildcard ++ (v ++ (wildcard ++ x))) := by
  induction w generalizing p with
  | nil => simp [pairHoles]
  | cons e rest ih =>
    simp only [pairHoles, List.mem_append, List.mem_map]
    constructor
    · rintro (⟨q, hq, rfl⟩ | ⟨q, hq, rfl⟩)
      · obtain ⟨v, d, x, rfl, rfl⟩ := mem_singleHoles.1 hq
        exact ⟨[], e, v, d, x, rfl, rfl⟩
      · obtain ⟨u, c, v, d, x, rfl, rfl⟩ := ih.1 hq
        exact ⟨e :: u, c, v, d, x, rfl, rfl⟩
    · rintro ⟨u, c, v, d, x, hw, rfl⟩
      cases u with
      | nil =>
        obtain ⟨rfl, rfl⟩ := List.cons.inj hw
        exact .inl ⟨_, mem_singleHoles.2 ⟨v, d, x, rfl, rfl⟩, rfl⟩
      | cons f u =>
        obtain ⟨rfl, hrest⟩ := List.cons.inj hw
        exact .inr ⟨_, ih.2 ⟨u, c, v, d, x, hrest, rfl⟩, rfl⟩

end Holes

/-! ## Places -/

section Places

variable {key word : List Char} {start : Nat}

/-- The key begins at a place of the word. -/
def occursAt (key word : List Char) (place : Nat) : Bool :=
  (word.drop place).take key.length == key

/-- The places at which a key begins, in increasing order; the empty key begins everywhere, also at
the end. -/
def places (key word : List Char) : List Nat :=
  (List.range (word.length + 1)).filter (occursAt key word)

theorem occursAt_iff {place : Nat} :
    occursAt key word place = true ↔ (word.drop place).take key.length = key := by
  rw [occursAt, beq_iff_eq]

theorem occursAt_zero : occursAt key word 0 = key.isPrefixOf word := by
  rw [Bool.eq_iff_iff, occursAt_iff, List.isPrefixOf_iff_prefix, List.prefix_iff_eq_take,
    List.drop_zero, eq_comm]

theorem places_nil : places key [] = if key = [] then [0] else [] := by
  cases key <;> rfl

/-- A key begins at the first character, or at a place of the rest. -/
theorem places_cons (c : Char) (rest : List Char) :
    places key (c :: rest) =
      (if key.isPrefixOf (c :: rest) then [0] else []) ++ (places key rest).map (· + 1) := by
  have hrest : (List.range (rest.length + 1)).filter (occursAt key (c :: rest) ∘ (· + 1)) =
      places key rest := rfl
  rw [places, List.length_cons, List.range_succ_eq_map, List.filter_cons, occursAt_zero,
    List.filter_map, hrest]
  split <;> rfl

/-- A key begins where something stands before it and something after it. -/
theorem mem_places {place : Nat} :
    place ∈ places key word ↔
      ∃ before after, word = before ++ key ++ after ∧ place = before.length := by
  simp only [places, List.mem_filter, List.mem_range, occursAt_iff]
  constructor
  · rintro ⟨hplace, hkey⟩
    refine ⟨word.take place, word.drop (place + key.length), ?_, ?_⟩
    · have hrest : word.drop place = key ++ word.drop (place + key.length) := by
        rw [← List.drop_drop]
        exact (List.prefix_iff_eq_append.1 (List.prefix_iff_eq_take.2 hkey.symm)).symm
      rw [List.append_assoc, ← hrest, List.take_append_drop]
    · rw [List.length_take]
      omega
  · rintro ⟨before, after, rfl, rfl⟩
    refine ⟨?_, ?_⟩
    · simp only [List.length_append]
      omega
    · rw [List.append_assoc, List.drop_left, List.take_left]

/-! ### The search for them -/

/-- The first place at which a key begins, from a place on. -/
def nextPlace? (key word : List Char) (start : Nat) : Option Nat :=
  (List.range' start (word.length + 1 - start)).find? (occursAt key word)

/-- A search from a place on, and from one place after each find, ends with the finds. -/
inductive Search (key word : List Char) : Nat → List Nat → Prop
  | ended {start : Nat} (h : nextPlace? key word start = none) : Search key word start []
  | found {start place : Nat} {later : List Nat} (h : nextPlace? key word start = some place)
    (hlater : Search key word (place + 1) later) : Search key word start (place :: later)

/-- A search finds the same from a place on where the key does not begin. -/
theorem Search.skip {finds : List Nat}
    (hskip : nextPlace? key word start = nextPlace? key word (start + 1))
    (h : Search key word (start + 1) finds) : Search key word start finds := by
  cases h with
  | ended hnone => exact .ended (hskip.trans hnone)
  | found hfirst hlater => exact .found (hskip.trans hfirst) hlater

/-- A search ends with all the places from its start on.  The induction is on the places that are
left, of which the empty key has one more than the word has characters. -/
theorem search_from (key word : List Char) (start : Nat) :
    Search key word start
      ((List.range' start (word.length + 1 - start)).filter (occursAt key word)) := by
  induction hleft : word.length + 1 - start generalizing start with
  | zero =>
    refine .ended ?_
    rw [nextPlace?, hleft]
    rfl
  | succ left ih =>
    have hnext : word.length + 1 - (start + 1) = left := by omega
    have hlater := ih (start + 1) hnext
    rw [List.range'_succ, List.filter_cons]
    cases hocc : occursAt key word start with
    | true =>
      refine .found ?_ hlater
      rw [nextPlace?, hleft, List.range'_succ, List.find?_cons_of_pos hocc]
    | false =>
      refine hlater.skip ?_
      rw [nextPlace?, nextPlace?, hleft, hnext, List.range'_succ,
        List.find?_cons_of_neg (by simp [hocc])]

theorem Search.unique {finds finds' : List Nat} (h : Search key word start finds)
    (h' : Search key word start finds') : finds = finds' := by
  induction h generalizing finds' with
  | ended hnone =>
    cases h' with
    | ended => rfl
    | found hsome => rw [hnone] at hsome; cases hsome
  | found hsome _ ih =>
    cases h' with
    | ended hnone => rw [hnone] at hsome; cases hsome
    | found hsome' hlater' =>
      rw [hsome] at hsome'
      cases hsome'
      rw [ih hlater']

/-- A search from the start of the word ends, with all the places and no others. -/
theorem search_iff {finds : List Nat} : Search key word 0 finds ↔ finds = places key word := by
  have hplaces : Search key word 0 (places key word) := by
    rw [places, List.range_eq_range']
    exact search_from key word 0
  constructor
  · intro h
    exact h.unique hplaces
  · rintro rfl
    exact hplaces

end Places

/-! ## One place after the other -/

/-- The word with what stands at a place, as long as the key, respelled. -/
def respellAt (key : List Char) (word : List Char) (place : Nat) (spelling : List Char) :
    List Char :=
  word.take place ++ spelling ++ word.drop (place + key.length)

theorem respellAt_zero (key word : List Char) :
    respellAt key word 0 = (· ++ word.drop key.length) := by
  funext spelling
  simp [respellAt]

theorem respellAt_succ (key : List Char) (c : Char) (rest : List Char) (place : Nat) :
    respellAt key (c :: rest) (place + 1) = (c :: ·) ∘ respellAt key rest place := by
  funext spelling
  simp [respellAt, Nat.add_right_comm]

theorem respellAt_length (key before after spelling : List Char) :
    respellAt key (before ++ key ++ after) before.length spelling =
      before ++ spelling ++ after := by
  rw [respellAt, List.append_assoc before key, List.take_left, ← List.drop_drop, List.drop_left,
    List.drop_left]

/-- The respellings of a word are listed by their places. -/
theorem respellings_eq (key : List Char) (spellings : List (List Char)) (word : List Char) :
    respellings key spellings word =
      (places key word).flatMap fun place =>
        (spellings.filter (· ≠ key)).map (respellAt key word place) := by
  induction word with
  | nil =>
    rw [respellings, places_nil]
    split
    · simp [respellAt_zero]
    · rfl
  | cons c rest ih =>
    have hlater : ((places key rest).map (· + 1)).flatMap (fun place =>
        (spellings.filter (· ≠ key)).map (respellAt key (c :: rest) place)) =
        (respellings key spellings rest).map (c :: ·) := by
      simp only [ih, List.flatMap_map, List.map_flatMap, List.map_map, respellAt_succ]
    rw [respellings, places_cons, List.flatMap_append, hlater]
    split <;> simp [respellAt_zero]

theorem mem_respellings {key word p : List Char} {spellings : List (List Char)} :
    p ∈ respellings key spellings word ↔
      ∃ spelling ∈ spellings, spelling ≠ key ∧
        ∃ before after, word = before ++ key ++ after ∧ p = before ++ spelling ++ after := by
  simp only [respellings_eq, List.mem_flatMap, mem_places, List.mem_map, List.mem_filter,
    decide_eq_true_eq]
  constructor
  · rintro ⟨_, ⟨before, after, rfl, rfl⟩, spelling, ⟨hmem, hne⟩, rfl⟩
    exact ⟨spelling, hmem, hne, before, after, rfl, respellAt_length key before after spelling⟩
  · rintro ⟨spelling, hmem, hne, before, after, rfl, rfl⟩
    exact ⟨_, ⟨before, after, rfl, rfl⟩, spelling, ⟨hmem, hne⟩,
      respellAt_length key before after spelling⟩

end Pattern

end Concordance
