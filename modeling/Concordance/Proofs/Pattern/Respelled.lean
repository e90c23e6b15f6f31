import Concordance.Proofs.Pattern.Alphabet

/-!
# The respellings of a word

The historical patterns of a word list, for every entry of an orthography, every place at which its
key begins in the word and every other spelling of it, the word respelled there.  Keys may overlap
each other or themselves, a key may be empty, and spellings may be empty or repeated.

* `tableListing` — the respellings by a table, one place after the other; the table's entries give
  no others and give them in that order (`tableRespellings_eq`).
* `Respelled` — one occurrence of one key gives way to another spelling.
* `historical_patterns_list_every_respelling` — the main statement.
-/

namespace Concordance

namespace Pattern

/-- The respellings of a word by a table: for each entry, for each place of its key, for each of its
other spellings, the word respelled there. -/
def tableListing (table : Table) (word : String) : List String :=
  table.flatMap fun e =>
    (places e.1.toList word.toList).flatMap fun place =>
      (e.2.filter (· ≠ e.1)).map fun spelling =>
        String.ofList (respellAt e.1.toList word.toList place spelling.toList)

theorem tableRespellings_eq (table : Table) (word : String) :
    (tableRespellings table word.toList).map String.ofList = tableListing table word := by
  have hfilter : ∀ e : String × List String,
      (e.2.map String.toList).filter (· ≠ e.1.toList) =
        (e.2.filter (· ≠ e.1)).map String.toList := by
    intro e
    simp [List.filter_map, Function.comp_def, String.toList_inj]
  simp only [tableRespellings, tableListing, respellings_eq, hfilter, List.map_flatMap,
    List.map_map, Function.comp_def]

/-- One occurrence of one key of the orthography gives way to another of its spellings. -/
def Respelled (o : Orthography) (spelling word p : String) : Prop :=
  ∃ e ∈ o.substitutions ++ o.vowels, spelling ∈ e.2 ∧ spelling ≠ e.1 ∧
    ∃ before after, word = before ++ e.1 ++ after ∧ p = before ++ spelling ++ after

theorem mem_tableListing {table : Table} {word p : String} :
    p ∈ tableListing table word ↔
      ∃ e ∈ table, ∃ spelling ∈ e.2, spelling ≠ e.1 ∧
        ∃ before after, word = before ++ e.1 ++ after ∧ p = before ++ spelling ++ after := by
  simp only [← tableRespellings_eq, tableRespellings, List.mem_map, List.mem_flatMap,
    mem_respellings]
  constructor
  · rintro ⟨_, ⟨e, he, _, ⟨spelling, hmem, rfl⟩, hne, before, after, hword, rfl⟩, rfl⟩
    refine ⟨e, he, spelling, hmem, fun h => hne (congrArg String.toList h), String.ofList before,
      String.ofList after, ?_, ?_⟩
    · rw [← String.toList_inj, hword]
      simp
    · rw [← String.toList_inj]
      simp
  · rintro ⟨e, he, spelling, hmem, hne, before, after, rfl, rfl⟩
    refine ⟨(before ++ spelling ++ after).toList, ⟨e, he, spelling.toList, ⟨spelling, hmem, rfl⟩,
      fun h => hne (String.toList_inj.1 h), before.toList, after.toList, ?_, ?_⟩,
      String.ofList_toList⟩
    · simp only [String.toList_append]
    · simp only [String.toList_append]

theorem patterns_historical {o : Orthography} {word : String} (hword : word ≠ "") :
    patterns o .historical word false =
      firstSeen (word :: (tableListing o.substitutions word ++ tableListing o.vowels word)) := by
  simp only [patterns, hword, if_false, variants, derive, ending_false, List.append_nil,
    List.cons_append, List.map_cons, List.map_append, String.ofList_toList,
    tableRespellings_eq]

theorem mem_patterns_historical {o : Orthography} {word p : String} (hword : word ≠ "") :
    p ∈ patterns o .historical word false ↔
      p = word ∨ ∃ spelling, Respelled o spelling word p := by
  simp only [patterns_historical hword, mem_firstSeen, List.mem_cons]
  apply or_congr_right
  rw [tableListing, tableListing, ← List.flatMap_append]
  constructor
  · intro hp
    obtain ⟨e, he, spelling, hmem, hne, hsplit⟩ := mem_tableListing.1 hp
    exact ⟨spelling, e, he, hmem, hne, hsplit⟩
  · rintro ⟨spelling, e, he, hmem, hne, hsplit⟩
    exact mem_tableListing.2 ⟨e, he, spelling, hmem, hne, hsplit⟩

end Pattern

open Pattern

/-- **The historical patterns of a word list every respelling of it.**  Whatever the orthography,
they are the distinct ones, in the order of their first occurrence, of the word and its respellings
by the two tables, entry by entry, place by place and spelling by spelling.  So a pattern is the
word or has one occurrence of one key respelled, and each such text is a pattern.  The search for
the places of a key ends with all of them, in increasing order. -/
theorem historical_patterns_list_every_respelling (o : Orthography) (word : String)
    (hword : word ≠ "") (given : Value) (hgiven : Strategy.ofValue? given = some .historical) :
    ∃ set, (Generator.ofOrthography o).patternSet word given false = .ok set ∧
      set.patterns =
        firstSeen (word :: (tableListing o.substitutions word ++ tableListing o.vowels word)) ∧
      (∀ p, p ∈ set.patterns ↔ p = word ∨ ∃ spelling, Respelled o spelling word p) ∧
      ∀ (key : String) (finds : List Nat),
        Search key.toList word.toList 0 finds ↔ finds = places key.toList word.toList :=
  ⟨_, Generator.patternSet_ofOrthography hgiven o word false, patterns_historical hword,
    fun _ => mem_patterns_historical hword, fun _ _ => search_iff⟩

/-- Keys that overlap themselves, the empty key and spellings that are empty or repeat what is there
are all respelled, one occurrence at a time. -/
theorem overlapping_keys_are_respelled_apart :
    let o : Orthography :=
      { name := "custom"
        substitutions := [("aa", ["b"]), ("", ["x", ""])]
        vowels := [("a", ["", "a"])] }
    let given : Value := .text " Medieval "
    "aaa" ≠ "" ∧ Strategy.ofValue? given = some .historical ∧
    (∃ set, (Generator.ofOrthography o).patternSet "aaa" given false = .ok set ∧
      set.patterns = ["aaa", "ba", "ab", "xaaa", "axaa", "aaxa", "aaax", "aa"]) ∧
    Search "aa".toList "aaa".toList 0 [0, 1] ∧ Search [] "aaa".toList 0 [0, 1, 2, 3] := by
  intro o given
  have hword : "aaa" ≠ "" := by decide
  have hgiven : Strategy.ofValue? given = some .historical := by decide +kernel
  obtain ⟨set, hset, hlisted, -, hsearch⟩ :=
    historical_patterns_list_every_respelling o "aaa" hword given hgiven
  refine ⟨hword, hgiven, ⟨set, hset, ?_⟩, ?_, ?_⟩
  · rw [hlisted]
    decide +kernel
  · exact (hsearch "aa" _).2 (by decide)
  · exact (hsearch "" _).2 (by decide)

end Concordance
