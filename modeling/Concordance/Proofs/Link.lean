import Concordance.Link
import Concordance.Text.Blank

/-!
# Reading a query back from its link

A link is read back in two steps: triplets become bytes again, every other character its UTF-8 form,
and the bytes are then read as UTF-8.

* `hexValue?`, `bytes?`, `decode?` — the two steps.
* `bytes?_encodeChars` — an encoded text stands for the bytes of its UTF-8 form.
* `decode?_encode` — so what is read back is the query.
* `isLinkChar`, `isLinkChar_of_mem_encodeChars` — the characters of an encoded text, none of which
  is white space.
* `IsPlain`, `IsHex`, `IsEncoded` — the form of encoded texts, said without the encoding.
* `encoding_is_reversible_and_closed` — encoded texts have that form, are read back, are encoded
  part by part, and differ where the texts do; and so do links.
-/

namespace Concordance.Link

open Concordance.Text

/-- The number of a hexadecimal digit in either case. -/
def hexValue? (c : Char) : Option Nat :=
  if '0' ≤ c ∧ c ≤ '9' then some (c.toNat - 0x30)
  else if 'A' ≤ c ∧ c ≤ 'F' then some (c.toNat - 0x37)
  else if 'a' ≤ c ∧ c ≤ 'f' then some (c.toNat - 0x57)
  else none

/-- The bytes of a text with triplets; a percent sign without two digits stands for nothing. -/
def bytes? : List Char → Option (List UInt8)
  | [] => some []
  | '%' :: high :: low :: rest => do
    let h ← hexValue? high
    let l ← hexValue? low
    let bs ← bytes? rest
    return UInt8.ofNat (16 * h + l) :: bs
  | c :: rest =>
    if c = '%' then none
    else do
      let bs ← bytes? rest
      return String.utf8EncodeChar c ++ bs

/-- The text behind an encoded one, if its bytes are UTF-8. -/
def decode? (s : String) : Option String := do
  let bs ← bytes? s.toList
  String.fromUTF8? bs.toByteArray

/-! ## Bytes -/

theorem hexValue?_upperHexDigit : ∀ n < 16, hexValue? (upperHexDigit n) = some n := by
  decide

theorem bytes?_triplet (b : UInt8) (rest : List Char) :
    bytes? (triplet b ++ rest) = (bytes? rest).map (b :: ·) := by
  have hb : b.toNat < 256 := b.toNat_lt
  have hhigh := hexValue?_upperHexDigit (b.toNat / 16) (by omega)
  have hlow := hexValue?_upperHexDigit (b.toNat % 16) (by omega)
  have hsum : 16 * (b.toNat / 16) + b.toNat % 16 = b.toNat := Nat.div_add_mod _ _
  show bytes? ('%' :: _ :: _ :: rest) = _
  rw [bytes?, hhigh, hlow]
  simp only [Option.bind_eq_bind, Option.bind_some, hsum, UInt8.ofNat_toNat]
  cases bytes? rest <;> rfl

theorem bytes?_triplets (bs : List UInt8) (rest : List Char) :
    bytes? (bs.flatMap triplet ++ rest) = (bytes? rest).map (bs ++ ·) := by
  induction bs with
  | nil => simp
  | cons b more ih =>
    rw [List.flatMap_cons, List.append_assoc, bytes?_triplet, ih, Option.map_map]
    rfl

theorem bytes?_cons_of_ne {c : Char} (h : c ≠ '%') (rest : List Char) :
    bytes? (c :: rest) = (bytes? rest).map (String.utf8EncodeChar c ++ ·) := by
  rw [bytes?.eq_3 _ _ fun _ _ _ hc _ => h hc, if_neg h]
  cases bytes? rest <;> rfl

theorem isUnreserved_percent : isUnreserved '%' = false := by decide

theorem bytes?_encodeChar (c : Char) (rest : List Char) :
    bytes? (encodeChar c ++ rest) = (bytes? rest).map (String.utf8EncodeChar c ++ ·) := by
  unfold encodeChar
  split
  · rename_i h
    refine bytes?_cons_of_ne (fun hc => ?_) rest
    rw [hc, isUnreserved_percent] at h
    cases h
  · exact bytes?_triplets _ rest

/-- An encoded text stands for the bytes of its UTF-8 form. -/
theorem bytes?_encodeChars (cs : List Char) :
    bytes? (encodeChars cs) = some (cs.flatMap String.utf8EncodeChar) := by
  induction cs with
  | nil => rfl
  | cons c rest ih =>
    have hcons : encodeChars (c :: rest) = encodeChar c ++ encodeChars rest := rfl
    rw [hcons, bytes?_encodeChar, ih]
    rfl

theorem fromUTF8?_toByteArray (s : String) : String.fromUTF8? s.toByteArray = some s := by
  rw [String.fromUTF8?, dif_pos s.isValidUTF8]
  rfl

/-- **A query is read back from its encoded form.** -/
theorem decode?_encode (query : String) : decode? (encode query) = some query := by
  have hbytes : (query.toList.flatMap String.utf8EncodeChar).toByteArray = query.toByteArray := by
    rw [← String.utf8Encode_toList]
    rfl
  have hread : bytes? (encode query).toList =
      some (query.toList.flatMap String.utf8EncodeChar) := by
    rw [encode, String.toList_ofList, bytes?_encodeChars]
  rw [decode?, hread, Option.bind_eq_bind, Option.bind_some, hbytes, fromUTF8?_toByteArray]

/-! ## Characters -/

/-- The characters of an encoded text: those that stand for themselves, and those of triplets. -/
def isLinkChar (c : Char) : Bool :=
  isUnreserved c || c == '%'

theorem isLinkChar_upperHexDigit : ∀ n < 16, isLinkChar (upperHexDigit n) = true := by
  decide

theorem isLinkChar_of_mem_triplet {b : UInt8} {c : Char} (h : c ∈ triplet b) :
    isLinkChar c = true := by
  have hb : b.toNat < 256 := b.toNat_lt
  simp only [triplet, List.mem_cons, List.not_mem_nil, or_false] at h
  rcases h with rfl | rfl | rfl
  · rfl
  · exact isLinkChar_upperHexDigit _ (by omega)
  · exact isLinkChar_upperHexDigit _ (by omega)

theorem isLinkChar_of_mem_encodeChars {cs : List Char} {c : Char} (h : c ∈ encodeChars cs) :
    isLinkChar c = true := by
  obtain ⟨d, -, hd⟩ := List.mem_flatMap.1 h
  unfold encodeChar at hd
  split at hd
  · rename_i hfree
    obtain rfl := List.mem_singleton.1 hd
    simp [isLinkChar, hfree]
  · obtain ⟨b, -, hb⟩ := List.mem_flatMap.1 hd
    exact isLinkChar_of_mem_triplet hb

theorem toNat_bounds_of_isAlphanum {c : Char} (h : c.isAlphanum = true) :
    0x30 ≤ c.toNat ∧ c.toNat ≤ 0x7A := by
  simp only [isAlphanum_iff, Char.le_def, UInt32.le_iff_toNat_le] at h
  have hval : c.toNat = c.val.toNat := rfl
  rcases h with h | h | h <;> simp at h <;> omega

/-- The characters of an encoded text are visible ones of ASCII. -/
theorem toNat_bounds_of_isLinkChar {c : Char} (h : isLinkChar c = true) :
    0x20 < c.toNat ∧ c.toNat < 0x7F := by
  have hmarks : ∀ d ∈ '%' :: marks, 0x20 < d.toNat ∧ d.toNat < 0x7F := by
    have hall : ('%' :: marks).all (fun d => 0x20 < d.toNat && d.toNat < 0x7F) = true := by decide
    simpa only [List.all_eq_true, Bool.and_eq_true, decide_eq_true_eq] using hall
  simp only [isLinkChar, isUnreserved, Bool.or_eq_true, List.contains_iff_mem, beq_iff_eq] at h
  rcases h with (h | h) | rfl
  · have := toNat_bounds_of_isAlphanum h
    omega
  · exact hmarks c (List.mem_cons_of_mem _ h)
  · exact hmarks '%' (List.mem_cons_self ..)

theorem isBlank_of_isLinkChar {c : Char} (h : isLinkChar c = true) : isBlank c = false := by
  have := toNat_bounds_of_isLinkChar h
  simp only [isBlank, inRanges, blanks, List.any_cons, List.any_nil, Bool.or_false,
    Bool.or_eq_false_iff, Bool.and_eq_false_iff, decide_eq_false_iff_not]
  omega

/-! ## Form -/

/-- The letters and digits of ASCII and the marks `-_.!~*'()`. -/
def IsPlain (c : Char) : Prop :=
  ('A' ≤ c ∧ c ≤ 'Z') ∨ ('a' ≤ c ∧ c ≤ 'z') ∨ ('0' ≤ c ∧ c ≤ '9') ∨ c ∈ "-_.!~*'()".toList

/-- The upper-case hexadecimal digits. -/
def IsHex (c : Char) : Prop :=
  ('0' ≤ c ∧ c ≤ '9') ∨ ('A' ≤ c ∧ c ≤ 'F')

instance (c : Char) : Decidable (IsHex c) :=
  inferInstanceAs (Decidable (_ ∨ _))

/-- The texts of plain characters and of triplets, each a percent sign with two digits. -/
inductive IsEncoded : List Char → Prop
  | nil : IsEncoded []
  | plain {c : Char} {rest : List Char} (hc : IsPlain c) (hrest : IsEncoded rest) :
    IsEncoded (c :: rest)
  | triplet {high low : Char} {rest : List Char} (hhigh : IsHex high) (hlow : IsHex low)
    (hrest : IsEncoded rest) : IsEncoded ('%' :: high :: low :: rest)

theorem isPlain_of_isUnreserved {c : Char} (h : isUnreserved c = true) : IsPlain c := by
  rw [isUnreserved, Bool.or_eq_true, List.contains_iff_mem] at h
  rcases h with halphanum | hmark
  · rcases isAlphanum_iff.1 halphanum with hlower | hupper | hdigit
    · exact .inr (.inl hlower)
    · exact .inl hupper
    · exact .inr (.inr (.inl hdigit))
  · exact .inr (.inr (.inr hmark))

theorem isHex_upperHexDigit : ∀ n < 16, IsHex (upperHexDigit n) := by
  decide

theorem IsEncoded.triplets (bs : List UInt8) {rest : List Char} (h : IsEncoded rest) :
    IsEncoded (bs.flatMap Link.triplet ++ rest) := by
  induction bs with
  | nil => exact h
  | cons b more ih =>
    have hb : b.toNat < 256 := b.toNat_lt
    have hhigh := isHex_upperHexDigit (b.toNat / 16) (by omega)
    have hlow := isHex_upperHexDigit (b.toNat % 16) (by omega)
    exact ih.triplet hhigh hlow

/-- An encoded text has the form of encoded texts. -/
theorem isEncoded_encodeChars (cs : List Char) : IsEncoded (encodeChars cs) := by
  induction cs with
  | nil => exact .nil
  | cons c rest ih =>
    show IsEncoded (encodeChar c ++ encodeChars rest)
    unfold encodeChar
    split
    · rename_i hc
      exact .plain (isPlain_of_isUnreserved hc) ih
    · exact .triplets _ ih

theorem encode_append (p q : String) : encode (p ++ q) = encode p ++ encode q := by
  rw [encode, String.toList_append, encodeChars_append, String.ofList_append]
  rfl

theorem encode_injective : Function.Injective encode := by
  intro p q h
  have hread : some p = some q := by rw [← decode?_encode p, h, decode?_encode]
  exact Option.some.inj hread

/-- **The form of a query inside a link is closed and can be undone.**  It consists of plain
characters and triplets; to read it back gives the query; the form of two texts one after the other
is that of the first and then that of the second; and other queries have other forms and, behind one
and the same base, other links. -/
theorem encoding_is_reversible_and_closed :
    (∀ q, IsEncoded (encode q).toList) ∧
    (∀ q, decode? (encode q) = some q) ∧
    (∀ p q, encode (p ++ q) = encode p ++ encode q) ∧
    Function.Injective encode ∧
    ∀ base, Function.Injective (searchUrl base) := by
  refine ⟨fun q => ?_, decode?_encode, encode_append, encode_injective, fun base p q h => ?_⟩
  · rw [encode, String.toList_ofList]
    exact isEncoded_encodeChars q.toList
  · have hforms : (encode p).toList = (encode q).toList := by
      have hlinks := congrArg String.toList h
      simpa only [searchUrl, String.toList_append, List.append_cancel_left_eq] using hlinks
    exact encode_injective (String.toList_injective hforms)

end Concordance.Link
