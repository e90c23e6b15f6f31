import Concordance.Proofs.Value.Reader

/-!
# Payloads and what they say

The text of a plain value is one line of ASCII, and says the value with the keys of its records in
order.

* `written` — the text of a value.
* `json?_plain`, `written_list`, `written_record` — what it is, one equation for each kind.
* `IsLineChar`, `isLineChar_of_mem_written` — its characters.
* `takes_written`, `read?_written` — it is read back as the value in order.
-/

namespace Concordance.Payload

open Concordance.Decimal Concordance.Text Concordance.Value

/-- The text of a value. -/
def written (v : Value) : List Char :=
  (json? v).getD []

/-- Entries with their values written. -/
def withWrittenValues (fs : List (String × Value)) : List (String × List Char) :=
  fs.map fun e => (e.1, written e.2)

/-- An entry of a record as it is written. -/
def writtenEntry (e : String × Value) : List Char :=
  jsonString e.1.toList ++ [':', ' '] ++ written e.2

/-! ## Plain values -/

theorem jsonItems?_eq {items : List Value} (h : ∀ v ∈ items, json? v = some (written v)) :
    jsonItems? items = some (items.map written) := by
  induction items with
  | nil => rfl
  | cons v rest ih =>
    obtain ⟨hv, hrest⟩ := List.forall_mem_cons.1 h
    simp only [jsonItems?, hv, ih hrest, bind, Option.bind_some]
    rfl

theorem jsonEntries?_eq {fs : List (String × Value)}
    (h : ∀ e ∈ fs, json? e.2 = some (written e.2)) :
    jsonEntries? (textKeyed fs) = some (textKeyed (withWrittenValues fs)) := by
  induction fs with
  | nil => rfl
  | cons e rest ih =>
    obtain ⟨he, hrest⟩ := List.forall_mem_cons.1 h
    show jsonEntries? ((.text e.1, e.2) :: textKeyed rest) = _
    simp only [jsonEntries?, he, ih hrest, bind, Option.bind_some]
    rfl

theorem sameSort_textKeyed {α : Type} (fs : List (String × α)) :
    sameSort (textKeyed fs) = true := by
  cases fs with
  | nil => rfl
  | cons e rest => simp [textKeyed, sameSort, keySort]

theorem json?_list {items : List Value} (h : ∀ v ∈ items, json? v = some (written v)) :
    json? (.list items) = some ('[' :: commaSeparated (items.map written) ++ [']']) := by
  simp only [json?, jsonItems?_eq h, bind, Option.bind_some]
  rfl

theorem json?_record {fs : List (String × Value)}
    (h : ∀ e ∈ fs, json? e.2 = some (written e.2)) :
    json? (.record (textKeyed fs)) =
      some ('\x7b' :: commaSeparated ((sortByKey fs).map writtenEntry) ++ ['\x7d']) := by
  simp only [json?, jsonEntries?_eq h, bind, Option.bind_some, sameSort_textKeyed, if_true]
  rw [sortEntries_textKeyed, withWrittenValues, sortByKey_map, jsonRecord, textKeyed, List.map_map,
    List.map_map]
  rfl

/-- Every plain value is written. -/
theorem json?_plain {v : Value} (h : Plain v) : json? v = some (written v) := by
  induction h with
  | null => rfl
  | bool b => cases b <;> rfl
  | int h => rfl
  | text s => rfl
  | list h ih => rw [written, json?_list ih, Option.getD_some]
  | record hkeys h ih => rw [written, json?_record ih, Option.getD_some]

theorem written_list {items : List Value} (h : ∀ v ∈ items, Plain v) :
    written (.list items) = '[' :: commaSeparated (items.map written) ++ [']'] := by
  rw [written, json?_list fun v hv => json?_plain (h v hv), Option.getD_some]

theorem written_record {fs : List (String × Value)} (h : ∀ e ∈ fs, Plain e.2) :
    written (.record (textKeyed fs)) =
      '\x7b' :: commaSeparated ((sortByKey fs).map writtenEntry) ++ ['\x7d'] := by
  rw [written, json?_record fun e he => json?_plain (h e he), Option.getD_some]

/-- The payload of a plain record is its text. -/
theorem payload_eq {es : Entries} (h : Plain (.record es)) : payload es = written (.record es) := by
  rw [payload, json?_plain h, Option.getD_some]

/-- The order of the entries does not matter to the text. -/
theorem written_sorted {v : Value} (h : Plain v) : written v.sorted = written v := by
  induction h with
  | null => rfl
  | bool b => rfl
  | int h => rfl
  | text s => rfl
  | @list items h ih =>
    have hsorted : ∀ v ∈ items.map sorted, Plain v :=
      List.forall_mem_map.2 fun v hv => plain_sorted (h v hv)
    have hitems : (items.map sorted).map written = items.map written := by
      rw [List.map_map]
      exact List.map_congr_left ih
    rw [sorted_list, written_list hsorted, written_list h, hitems]
  | @record fs hkeys h ih =>
    have hnodup : ((withSortedValues fs).map Prod.fst).Nodup := keys_withSortedValues fs ▸ hkeys
    have hplain : Plain (Value.record (textKeyed fs)).sorted := plain_sorted (.record hkeys h)
    -- sorting once more changes nothing, and commutes with sorting the values
    have hagain : sortByKey (sortByKey (withSortedValues fs)) =
        (sortByKey fs).map fun e => (e.1, e.2.sorted) := by
      rw [← sortByKey_eq_of_perm hnodup (sortByKey_perm _).symm]
      exact sortByKey_map sorted fs
    have hentries : (sortByKey (sortByKey (withSortedValues fs))).map writtenEntry =
        (sortByKey fs).map writtenEntry := by
      rw [hagain, List.map_map]
      refine List.map_congr_left fun e he => ?_
      show jsonString e.1.toList ++ [':', ' '] ++ written e.2.sorted = writtenEntry e
      rw [ih e ((sortByKey_perm fs).mem_iff.1 he)]
      rfl
    rw [sorted_record] at hplain ⊢
    rw [written_record (plain_record_iff.1 hplain).2, hentries, written_record h]

/-- Plain values that are alike have one text. -/
theorem written_eq_of_alike {v w : Value} (h : Alike v w) (hv : Plain v) (hw : Plain w) :
    written v = written w := by
  rw [← written_sorted hv, h.sorted_eq hv hw, written_sorted hw]

/-! ## Characters -/

/-- The characters of one line of ASCII. -/
def IsLineChar (c : Char) : Prop :=
  0x20 ≤ c.toNat ∧ c.toNat ≤ 0x7F

theorem forall_mem_commaSeparated {P : Char → Prop} {pieces : List (List Char)} (hcomma : P ',')
    (hspace : P ' ') (h : ∀ piece ∈ pieces, ∀ c ∈ piece, P c) :
    ∀ c ∈ commaSeparated pieces, P c := by
  induction pieces with
  | nil => exact List.forall_mem_nil _
  | cons piece rest ih =>
    obtain ⟨hpiece, hrest⟩ := List.forall_mem_cons.1 h
    cases rest with
    | nil => exact hpiece
    | cons next more =>
      have hmark : ∀ c ∈ [',', ' '], P c := by simp [hcomma, hspace]
      exact List.forall_mem_append.2 ⟨List.forall_mem_append.2 ⟨hpiece, hmark⟩, ih hrest⟩

theorem isLineChar_hexDigit : ∀ n < 16, 0x20 ≤ (hexDigit n).toNat ∧ (hexDigit n).toNat ≤ 0x7F := by
  decide

theorem isLineChar_of_mem_hexDigits (width n : Nat) : ∀ c ∈ hexDigits width n, IsLineChar c := by
  induction width generalizing n with
  | zero => exact List.forall_mem_nil _
  | succ width ih =>
    refine List.forall_mem_append.2 ⟨ih (n / 16), List.forall_mem_singleton.2 ?_⟩
    exact isLineChar_hexDigit _ (Nat.mod_lt n (by decide))

theorem isLineChar_of_mem_escapeUnit (n : Nat) : ∀ c ∈ escapeUnit n, IsLineChar c :=
  List.forall_mem_append.2 ⟨by simp [IsLineChar], isLineChar_of_mem_hexDigits 4 n⟩

theorem isLineChar_of_mem_escapeJson (c : Char) : ∀ d ∈ escapeJson c, IsLineChar d := by
  have hletters : ∀ d ∈ ['"', '\\', 'n', 'r', 't', 'b', 'f'], IsLineChar d := by simp [IsLineChar]
  rcases escapeJson_cases c with ⟨d, hd, hform, -⟩ | ⟨hform, -, -, hlow, hhigh⟩ | ⟨hform, -⟩ |
    ⟨hform, -⟩
  · rw [hform]
    exact List.forall_mem_cons.2 ⟨hletters _ (by simp), List.forall_mem_singleton.2 (hletters d hd)⟩
  · rw [hform]
    exact List.forall_mem_singleton.2 ⟨hlow, Nat.le_of_lt hhigh⟩
  · rw [hform]
    exact isLineChar_of_mem_escapeUnit _
  · rw [hform]
    exact List.forall_mem_append.2 ⟨isLineChar_of_mem_escapeUnit _, isLineChar_of_mem_escapeUnit _⟩

theorem isLineChar_of_mem_jsonString (cs : List Char) : ∀ c ∈ jsonString cs, IsLineChar c := by
  have hquote : IsLineChar '"' := by simp [IsLineChar]
  refine List.forall_mem_cons.2 ⟨hquote, List.forall_mem_append.2 ⟨fun d hd => ?_, ?_⟩⟩
  · obtain ⟨c, -, hc⟩ := List.mem_flatMap.1 hd
    exact isLineChar_of_mem_escapeJson c d hc
  · exact List.forall_mem_singleton.2 hquote

theorem isLineChar_of_isDigit {c : Char} (h : c.isDigit = true) : IsLineChar c := by
  simp only [Char.isDigit, ge_iff_le, Bool.and_eq_true, decide_eq_true_eq,
    UInt32.le_iff_toNat_le] at h
  have hzero : 48 ≤ c.toNat := h.1
  have hnine : c.toNat ≤ 57 := h.2
  exact ⟨by omega, by omega⟩

theorem isLineChar_of_mem_intChars (n : Int) : ∀ c ∈ intChars n, IsLineChar c := by
  have hdigits (k : Nat) : ∀ c ∈ natChars k, IsLineChar c := fun c hc =>
    isLineChar_of_isDigit (Nat.isDigit_of_mem_toDigits (by decide) (by decide) hc)
  cases n with
  | ofNat k => exact hdigits k
  | negSucc k => exact List.forall_mem_cons.2 ⟨by simp [IsLineChar], hdigits (k + 1)⟩

/-- The text of a plain value is one line of ASCII. -/
theorem isLineChar_of_mem_written {v : Value} (h : Plain v) : ∀ c ∈ written v, IsLineChar c := by
  have hmark : ∀ c ∈ [',', ' ', ':', '[', ']', '\x7b', '\x7d'], IsLineChar c := by
    simp [IsLineChar]
  induction h with
  | null => simp [written, json?, IsLineChar]
  | bool b => cases b <;> simp [written, json?, IsLineChar]
  | @int n h => exact isLineChar_of_mem_intChars n
  | text s => exact isLineChar_of_mem_jsonString s.toList
  | @list items h ih =>
    have hitems := forall_mem_commaSeparated (hmark _ (by simp)) (hmark _ (by simp))
      (List.forall_mem_map.2 ih)
    rw [written_list h]
    refine List.forall_mem_cons.2 ⟨hmark _ (by simp), List.forall_mem_append.2 ⟨hitems, ?_⟩⟩
    exact List.forall_mem_singleton.2 (hmark _ (by simp))
  | @record fs hkeys h ih =>
    have hentry : ∀ e ∈ sortByKey fs, ∀ c ∈ writtenEntry e, IsLineChar c := by
      intro e he
      refine List.forall_mem_append.2 ⟨List.forall_mem_append.2 ⟨?_, ?_⟩, ?_⟩
      · exact isLineChar_of_mem_jsonString e.1.toList
      · simp [IsLineChar]
      · exact ih e ((sortByKey_perm fs).mem_iff.1 he)
    have hentries := forall_mem_commaSeparated (hmark _ (by simp)) (hmark _ (by simp))
      (List.forall_mem_map.2 hentry)
    rw [written_record h]
    refine List.forall_mem_cons.2 ⟨hmark _ (by simp), List.forall_mem_append.2 ⟨hentries, ?_⟩⟩
    exact List.forall_mem_singleton.2 (hmark _ (by simp))

/-! ## Reading back -/

theorem length_le_of_mem_commaSeparated {pieces : List (List Char)} {piece : List Char}
    (h : piece ∈ pieces) : piece.length ≤ (commaSeparated pieces).length := by
  induction pieces with
  | nil => cases h
  | cons first rest ih =>
    cases rest with
    | nil => rw [List.mem_singleton.1 h]; exact Nat.le_refl _
    | cons next more =>
      simp only [commaSeparated, List.length_append]
      cases h with
      | head => omega
      | tail _ h =>
        have hrest := ih h
        omega

/-- The text of a plain value is read back as the value with its keys in order, at any depth that is
not below the length of the text. -/
theorem takes_written {v : Value} (h : Plain v) {depth : Nat}
    (hdepth : (written v).length ≤ depth + 1) :
    Takes (readValue (depth + 1)) (written v) v.sorted := by
  induction h generalizing depth with
  | null => exact takes_null
  | bool b =>
    cases b with
    | true => exact takes_true
    | false => exact takes_false
  | int h => exact takes_int h
  | text s => exact takes_text s
  | @list items h ih =>
    rw [written_list h] at hdepth ⊢
    rw [sorted_list]
    simp only [List.length_append, List.length_cons, List.length_nil] at hdepth
    obtain ⟨depth, rfl⟩ : ∃ k, depth = k + 1 := ⟨depth - 1, by omega⟩
    refine takes_list ?_
    rw [List.forall₂_map_left_iff, List.forall₂_map_right_iff, List.forall₂_same]
    intro v hv
    have hlength := length_le_of_mem_commaSeparated (List.mem_map_of_mem (f := written) hv)
    exact ih v hv (by omega)
  | @record fs hkeys h ih =>
    rw [written_record h] at hdepth ⊢
    rw [sorted_record, withSortedValues, sortByKey_map]
    simp only [List.length_append, List.length_cons, List.length_nil] at hdepth
    obtain ⟨depth, rfl⟩ : ∃ k, depth = k + 1 := ⟨depth - 1, by omega⟩
    refine takes_record ?_
    rw [List.forall₂_map_left_iff, List.forall₂_map_right_iff, List.forall₂_same]
    intro e he
    have hlength := length_le_of_mem_commaSeparated (List.mem_map_of_mem (f := writtenEntry) he)
    simp only [writtenEntry, List.length_append] at hlength
    exact takes_entry e.1 (ih e ((sortByKey_perm fs).mem_iff.1 he) (by omega))

/-- The text of a plain value says the value with its keys in order. -/
theorem read?_written {v : Value} (h : Plain v) :
    read? (String.ofList (written v)) = some v.sorted := by
  obtain ⟨c, more, hc, -⟩ := (takes_written h (Nat.le_succ _)).starts
  have hlength : (String.ofList (written v)).length = more.length + 1 := by
    rw [String.length_ofList, hc, List.length_cons]
  refine read?_of_takes ?_
  rw [hlength, String.toList_ofList]
  exact takes_written h (by rw [hc, List.length_cons])

end Concordance.Payload
