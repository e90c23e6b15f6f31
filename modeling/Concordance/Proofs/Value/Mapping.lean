import Concordance.Value.Payload
import Mathlib.Data.List.Sort
import Mathlib.Data.String.Basic

/-!
# Records as mappings

What a record says under its keys does not depend on the order of its entries.

* `Value.textKeyed` — entries under texts.
* `Value.Plain` — the values without doubles, options and bytes, whose records have texts as keys.
* `Value.Alike` — two values are the same, records at every depth as mappings.
* `Value.Ordered` — the keys of records increase by code points at every depth.
* `Value.sorted` — the value with the entries of records in order at every depth.
* `sortEntries_textKeyed` — entries under texts are sorted by these.
* `sorted_alike`, `ordered_sorted` — sorting a plain value keeps what it says and puts it in order.
* `Alike.sorted_eq` — plain values that are alike are the same once they are sorted.
-/

namespace Concordance.Value

open Concordance.Decimal Concordance.Payload

variable {α β : Type}

/-- Entries under texts. -/
def textKeyed (fs : List (String × α)) : List (Value × α) :=
  fs.map fun e => (.text e.1, e.2)

/-- Values without doubles, options and bytes; whole numbers have at most 4300 digits, and the keys
of records are texts, each of them once. -/
inductive Plain : Value → Prop
  | null : Plain .null
  | bool (b : Bool) : Plain (.bool b)
  | int {n : Int} (h : (natChars n.natAbs).length ≤ digitLimit) : Plain (.int n)
  | text (s : String) : Plain (.text s)
  | list {items : List Value} (h : ∀ v ∈ items, Plain v) : Plain (.list items)
  | record {fs : List (String × Value)} (hkeys : (fs.map Prod.fst).Nodup)
    (h : ∀ e ∈ fs, Plain e.2) : Plain (.record (textKeyed fs))

/-- Two values are the same, where records count as mappings.  A truth value is no number. -/
inductive Alike : Value → Value → Prop
  | refl (v : Value) : Alike v v
  | list {vs ws : List Value} (hlength : vs.length = ws.length)
    (h : ∀ (i : Nat) v w, vs[i]? = some v → ws[i]? = some w → Alike v w) :
    Alike (.list vs) (.list ws)
  | record {fs gs : List (String × Value)}
    (hkeys : ∀ key, key ∈ fs.map Prod.fst ↔ key ∈ gs.map Prod.fst)
    (h : ∀ key v w, fs.lookup key = some v → gs.lookup key = some w → Alike v w) :
    Alike (.record (textKeyed fs)) (.record (textKeyed gs))

/-- The keys of each record are texts that increase by code points. -/
inductive Ordered : Value → Prop
  | null : Ordered .null
  | bool (b : Bool) : Ordered (.bool b)
  | int (n : Int) : Ordered (.int n)
  | text (s : String) : Ordered (.text s)
  | list {items : List Value} (h : ∀ v ∈ items, Ordered v) : Ordered (.list items)
  | record {fs : List (String × Value)} (hkeys : (fs.map Prod.fst).Pairwise (· < ·))
    (h : ∀ e ∈ fs, Ordered e.2) : Ordered (.record (textKeyed fs))

/-! ## Entries under texts -/

theorem textKeyed_injective : Function.Injective (textKeyed : List (String × α) → _) := by
  refine List.map_injective_iff.2 fun e f h => ?_
  obtain ⟨hkey, hvalue⟩ := Prod.mk.inj h
  exact Prod.ext (Value.text.inj hkey) hvalue

theorem plain_record_iff {fs : List (String × Value)} :
    Plain (.record (textKeyed fs)) ↔ (fs.map Prod.fst).Nodup ∧ ∀ e ∈ fs, Plain e.2 := by
  constructor
  · intro h
    generalize hes : textKeyed fs = es at h
    cases h with
    | record hkeys h =>
      rw [textKeyed_injective hes]
      exact ⟨hkeys, h⟩
  · exact fun h => .record h.1 h.2

/-- Records that are alike have the same keys. -/
theorem Alike.mem_keys_iff {fs gs : List (String × Value)}
    (h : Alike (.record (textKeyed fs)) (.record (textKeyed gs))) (key : String) :
    key ∈ fs.map Prod.fst ↔ key ∈ gs.map Prod.fst := by
  generalize hv : Value.record (textKeyed fs) = v at h
  generalize hw : Value.record (textKeyed gs) = w at h
  cases h with
  | refl v =>
    rw [textKeyed_injective (Value.record.inj (hv.trans hw.symm))]
  | list hlength h => cases hv
  | record hkeys h =>
    rw [textKeyed_injective (Value.record.inj hv), textKeyed_injective (Value.record.inj hw)]
    exact hkeys key

/-- Under a key that occurs once is what stands beside it. -/
theorem lookup_eq_some_iff_mem {fs : List (String × α)} (h : (fs.map Prod.fst).Nodup) {key : String}
    {a : α} : fs.lookup key = some a ↔ (key, a) ∈ fs := by
  induction fs with
  | nil => simp
  | cons e rest ih =>
    obtain ⟨k, b⟩ := e
    obtain ⟨hk, hrest⟩ := List.nodup_cons.1 h
    by_cases hkey : key = k
    · subst hkey
      have hother : (key, a) ∉ rest := fun hmem => hk (List.mem_map.2 ⟨_, hmem, rfl⟩)
      simp [hother, eq_comm]
    · have hbeq : (key == k) = false := by simpa using hkey
      simp [List.lookup_cons, hbeq, ih hrest, hkey]

/-- The order of the entries of a record does not matter. -/
theorem Alike.of_perm {fs gs : List (String × Value)} (h : (fs.map Prod.fst).Nodup)
    (hperm : fs.Perm gs) : Alike (.record (textKeyed fs)) (.record (textKeyed gs)) := by
  have hgs : (gs.map Prod.fst).Nodup := (hperm.map Prod.fst).nodup_iff.1 h
  refine .record (fun key => (hperm.map Prod.fst).mem_iff) fun key v w hv hw => ?_
  rw [lookup_eq_some_iff_mem h, hperm.mem_iff, ← lookup_eq_some_iff_mem hgs, hw] at hv
  cases hv
  exact .refl _

/-! ## Order by keys -/

/-- The order of entries by their keys. -/
def KeyLe (e f : String × α) : Prop :=
  e.1 ≤ f.1

instance : DecidableRel (KeyLe (α := α)) := fun e f => inferInstanceAs (Decidable (e.1 ≤ f.1))

instance : Std.Total (KeyLe (α := α)) := ⟨fun e f => le_total e.1 f.1⟩

instance : IsTrans (String × α) KeyLe := ⟨fun _ _ _ h h' => le_trans (α := String) h h'⟩

/-- Entries in the order of their keys. -/
def sortByKey (fs : List (String × α)) : List (String × α) :=
  fs.insertionSort KeyLe

theorem charsLe_iff (cs ds : List Char) :
    charsLe cs ds = true ↔ ¬ List.Lex (· < ·) ds cs := by
  induction cs generalizing ds with
  | nil => simp [charsLe]
  | cons c cs ih =>
    cases ds with
    | nil => simp [charsLe]
    | cons d ds =>
      rw [charsLe]
      by_cases h : c = d
      · subst h
        simp [ih, List.cons_lex_cons_iff]
      · rw [if_neg h, decide_eq_true_eq, List.cons_lex_cons_iff]
        constructor
        · rintro (hlt : c < d) (hgt | ⟨heq, -⟩)
          · exact lt_asymm hlt hgt
          · exact h heq.symm
        · intro hnot
          have hle : c ≤ d := not_lt.1 fun hgt => hnot (.inl hgt)
          show c < d
          exact lt_of_le_of_ne hle h

theorem keyLe_text (s t : String) : keyLe (.text s) (.text t) = true ↔ s ≤ t :=
  charsLe_iff s.toList t.toList

theorem sortEntries_textKeyed (fs : List (String × α)) :
    sortEntries (textKeyed fs) = textKeyed (sortByKey fs) := by
  have hinsert (e : String × α) (gs : List (String × α)) :
      insertEntry (.text e.1, e.2) (textKeyed gs) = textKeyed (gs.orderedInsert KeyLe e) := by
    induction gs with
    | nil => rfl
    | cons g gs ih =>
      by_cases h : e.1 ≤ g.1
      · have hkey : keyLe (.text e.1) (.text g.1) = true := (keyLe_text _ _).2 h
        have hle : KeyLe e g := h
        simp [textKeyed, insertEntry, hkey, List.orderedInsert_cons, hle]
      · have hkey : ¬ keyLe (.text e.1) (.text g.1) = true := fun hle => h ((keyLe_text _ _).1 hle)
        have hle : ¬ KeyLe e g := h
        rw [List.orderedInsert_cons, if_neg hle]
        show (if keyLe (.text e.1) (.text g.1) = true then _ else _) = _
        rw [if_neg hkey]
        exact congrArg (_ :: ·) ih
  induction fs with
  | nil => rfl
  | cons e rest ih =>
    show insertEntry _ (sortEntries (textKeyed rest)) = _
    rw [ih, hinsert]
    rfl

theorem sortByKey_perm (fs : List (String × α)) : (sortByKey fs).Perm fs :=
  List.perm_insertionSort KeyLe fs

theorem nodup_keys_sortByKey {fs : List (String × α)} (h : (fs.map Prod.fst).Nodup) :
    ((sortByKey fs).map Prod.fst).Nodup :=
  ((sortByKey_perm fs).map Prod.fst).nodup_iff.2 h

/-- Keys that occur once increase in the sorted entries. -/
theorem pairwise_keys_sortByKey {fs : List (String × α)} (h : (fs.map Prod.fst).Nodup) :
    ((sortByKey fs).map Prod.fst).Pairwise (· < ·) := by
  have hle : ((sortByKey fs).map Prod.fst).Pairwise (· ≤ ·) :=
    List.pairwise_map.2 (List.pairwise_insertionSort KeyLe fs)
  exact (hle.and (nodup_keys_sortByKey h)).imp fun h => lt_of_le_of_ne h.1 h.2

/-- Entries with the same keys, each of them once, and the same values are sorted alike. -/
theorem sortByKey_eq_of_perm {fs gs : List (String × α)} (h : (fs.map Prod.fst).Nodup)
    (hperm : fs.Perm gs) : sortByKey fs = sortByKey gs := by
  have hsorted : (sortByKey fs).Perm (sortByKey gs) :=
    (sortByKey_perm fs).trans (hperm.trans (sortByKey_perm gs).symm)
  refine hsorted.eq_of_pairwise (fun e f he hf hle hge => ?_) (List.pairwise_insertionSort KeyLe fs)
    (List.pairwise_insertionSort KeyLe gs)
  have hkeys : e.1 = f.1 := le_antisymm hle hge
  exact List.inj_on_of_nodup_map (nodup_keys_sortByKey h) he (hsorted.symm.subset hf) hkeys

/-- The values do not matter to the order. -/
theorem sortByKey_map (f : α → β) (fs : List (String × α)) :
    sortByKey (fs.map fun e => (e.1, f e.2)) = (sortByKey fs).map fun e => (e.1, f e.2) := by
  refine (List.map_insertionSort KeyLe KeyLe _ fs fun e _ e' _ => ?_).symm
  exact Iff.rfl

/-! ## Values in order -/

mutual

/-- The value with the entries of its records in the order of their keys, at every depth. -/
def sorted : Value → Value
  | .list items => .list (sortedItems items)
  | .record entries => .record (sortEntries (sortedEntries entries))
  | v => v

def sortedItems : List Value → List Value
  | [] => []
  | v :: rest => sorted v :: sortedItems rest

def sortedEntries : List (Value × Value) → List (Value × Value)
  | [] => []
  | (k, v) :: rest => (k, sorted v) :: sortedEntries rest

end

/-- Entries with their values in order. -/
def withSortedValues (fs : List (String × Value)) : List (String × Value) :=
  fs.map fun e => (e.1, e.2.sorted)

theorem keys_withSortedValues (fs : List (String × Value)) :
    (withSortedValues fs).map Prod.fst = fs.map Prod.fst := by
  rw [withSortedValues, List.map_map]
  rfl

theorem sorted_list (items : List Value) : (list items).sorted = .list (items.map sorted) := by
  have hitems : sortedItems items = items.map sorted := by
    induction items with
    | nil => rfl
    | cons v rest ih => rw [sortedItems, ih, List.map_cons]
  rw [sorted, hitems]

theorem sorted_record (fs : List (String × Value)) :
    (record (textKeyed fs)).sorted = .record (textKeyed (sortByKey (withSortedValues fs))) := by
  have hentries : sortedEntries (textKeyed fs) = textKeyed (withSortedValues fs) := by
    induction fs with
    | nil => rfl
    | cons e rest ih => exact congrArg (_ :: ·) ih
  rw [sorted, hentries, sortEntries_textKeyed]

theorem mem_withSortedValues {fs : List (String × Value)} {key : String} {w : Value} :
    (key, w) ∈ withSortedValues fs ↔ ∃ v, (key, v) ∈ fs ∧ v.sorted = w := by
  rw [withSortedValues, List.mem_map]
  constructor
  · rintro ⟨⟨k, v⟩, hmem, heq⟩
    cases heq
    exact ⟨v, hmem, rfl⟩
  · rintro ⟨v, hmem, rfl⟩
    exact ⟨(key, v), hmem, rfl⟩

/-- Sorting keeps what a plain value says. -/
theorem sorted_alike {v : Value} (h : Plain v) : Alike v.sorted v := by
  induction h with
  | null => exact .refl _
  | bool b => exact .refl _
  | int h => exact .refl _
  | text s => exact .refl _
  | @list items h ih =>
    rw [sorted_list]
    refine .list (List.length_map _) fun i v w hv hw => ?_
    rw [List.getElem?_map, hw] at hv
    cases hv
    exact ih w (List.mem_of_getElem? hw)
  | @record fs hkeys h ih =>
    have hsorted : (withSortedValues fs).map Prod.fst = fs.map Prod.fst := keys_withSortedValues fs
    have hnodup : ((sortByKey (withSortedValues fs)).map Prod.fst).Nodup :=
      nodup_keys_sortByKey (hsorted ▸ hkeys)
    rw [sorted_record]
    refine .record (fun key => ?_) fun key v w hv hw => ?_
    · rw [((sortByKey_perm _).map Prod.fst).mem_iff, hsorted]
    · rw [lookup_eq_some_iff_mem hnodup, (sortByKey_perm _).mem_iff] at hv
      obtain ⟨u, hu, rfl⟩ := mem_withSortedValues.1 hv
      rw [(lookup_eq_some_iff_mem hkeys).2 hu] at hw
      cases hw
      exact ih _ hu

theorem plain_sorted {v : Value} (h : Plain v) : Plain v.sorted := by
  induction h with
  | null => exact .null
  | bool b => exact .bool b
  | int h => exact .int h
  | text s => exact .text s
  | @list items h ih =>
    rw [sorted_list]
    exact .list (List.forall_mem_map.2 ih)
  | @record fs hkeys h ih =>
    rw [← keys_withSortedValues] at hkeys
    rw [sorted_record]
    refine .record (nodup_keys_sortByKey hkeys) fun e he => ?_
    obtain ⟨v, hv, hsorted⟩ := mem_withSortedValues.1 ((sortByKey_perm _).mem_iff.1 he)
    rw [← hsorted]
    exact ih _ hv

/-- A plain value is put in order. -/
theorem ordered_sorted {v : Value} (h : Plain v) : Ordered v.sorted := by
  induction h with
  | null => exact .null
  | bool b => exact .bool b
  | @int n h => exact .int n
  | text s => exact .text s
  | @list items h ih =>
    rw [sorted_list]
    exact .list (List.forall_mem_map.2 ih)
  | @record fs hkeys h ih =>
    rw [← keys_withSortedValues] at hkeys
    rw [sorted_record]
    refine .record (pairwise_keys_sortByKey hkeys) fun e he => ?_
    obtain ⟨v, hv, hsorted⟩ := mem_withSortedValues.1 ((sortByKey_perm _).mem_iff.1 he)
    rw [← hsorted]
    exact ih _ hv

/-- Plain values that are alike are put in the same order. -/
theorem Alike.sorted_eq {v w : Value} (h : Alike v w) (hv : Plain v) (hw : Plain w) :
    v.sorted = w.sorted := by
  induction h with
  | refl v => rfl
  | @list vs ws hlength h ih =>
    cases hv with
    | list hvs =>
    cases hw with
    | list hws =>
    rw [sorted_list, sorted_list]
    refine congrArg Value.list (List.ext_getElem? fun i => ?_)
    rw [List.getElem?_map, List.getElem?_map]
    by_cases hi : i < vs.length
    · have hvi := List.getElem?_eq_getElem hi
      have hwi := List.getElem?_eq_getElem (hlength ▸ hi)
      rw [hvi, hwi]
      have hitem := ih i _ _ hvi hwi (hvs _ (List.getElem_mem _)) (hws _ (List.getElem_mem _))
      exact congrArg some hitem
    · rw [List.getElem?_eq_none (by omega), List.getElem?_eq_none (by omega)]
  | @record fs gs hkeys h ih =>
    obtain ⟨hfs, hplain⟩ := plain_record_iff.1 hv
    obtain ⟨hgs, hplain'⟩ := plain_record_iff.1 hw
    have hnodup : ((withSortedValues fs).map Prod.fst).Nodup := keys_withSortedValues fs ▸ hfs
    have hnodup' : ((withSortedValues gs).map Prod.fst).Nodup := keys_withSortedValues gs ▸ hgs
    have hsame {key : String} {v w : Value} (hv : (key, v) ∈ fs) (hw : (key, w) ∈ gs) :
        v.sorted = w.sorted :=
      ih key v w ((lookup_eq_some_iff_mem hfs).2 hv) ((lookup_eq_some_iff_mem hgs).2 hw)
        (hplain _ hv) (hplain' _ hw)
    have hperm : (withSortedValues fs).Perm (withSortedValues gs) := by
      refine (List.perm_ext_iff_of_nodup hnodup.of_map hnodup'.of_map).2 fun ⟨key, x⟩ => ?_
      rw [mem_withSortedValues, mem_withSortedValues]
      constructor
      · rintro ⟨v, hv, rfl⟩
        obtain ⟨⟨_, w⟩, hw, rfl⟩ := List.mem_map.1 ((hkeys key).1 (List.mem_map_of_mem hv))
        exact ⟨w, hw, (hsame hv hw).symm⟩
      · rintro ⟨w, hw, rfl⟩
        obtain ⟨⟨_, v⟩, hv, rfl⟩ := List.mem_map.1 ((hkeys key).2 (List.mem_map_of_mem hw))
        exact ⟨v, hv, hsame hv hw⟩
    rw [sorted_record, sorted_record, sortByKey_eq_of_perm hnodup hperm]

end Concordance.Value
