import Concordance.Proofs.Link
import Mathlib.Data.List.Basic

/-!
# Balanced parentheses

* `Balanced` — a text closes what it opens, and no beginning of it closes more than it opens.
* `Balanced.append`, `Balanced.parenthesize`, `Balanced.intercalate` — balanced texts put together.
* `balanced_encodeChars` — a text stays balanced inside a link, which writes parentheses as they
  are and adds none.
-/

namespace Concordance.Text

/-- A text closes what it opens, and no beginning of it closes more than it opens. -/
structure Balanced (cs : List Char) : Prop where
  settled : cs.count ')' = cs.count '('
  never_below : ∀ p, p <+: cs → p.count ')' ≤ p.count '('

/-- A beginning of two texts ends in the first one, or after it. -/
theorem prefix_append_cases {p a b : List Char} (h : p <+: a ++ b) :
    p <+: a ∨ ∃ q, q <+: b ∧ p = a ++ q := by
  rcases List.prefix_or_prefix_of_prefix h (List.prefix_append a b) with h' | ⟨q, rfl⟩
  · exact .inl h'
  · exact .inr ⟨q, (List.prefix_append_right_inj a).1 h, rfl⟩

/-- A text without parentheses is balanced. -/
theorem balanced_of_notMem {cs : List Char} (hopen : '(' ∉ cs) (hclose : ')' ∉ cs) :
    Balanced cs where
  settled := by rw [List.count_eq_zero_of_not_mem hopen, List.count_eq_zero_of_not_mem hclose]
  never_below p hp := by
    have hp' : ')' ∉ p := fun h => hclose (hp.subset h)
    rw [List.count_eq_zero_of_not_mem hp']
    exact Nat.zero_le _

namespace Balanced

theorem nil : Balanced [] :=
  balanced_of_notMem List.not_mem_nil List.not_mem_nil

theorem append {a b : List Char} (ha : Balanced a) (hb : Balanced b) : Balanced (a ++ b) where
  settled := by rw [List.count_append, List.count_append, ha.settled, hb.settled]
  never_below p hp := by
    rcases prefix_append_cases hp with hp | ⟨q, hq, rfl⟩
    · exact ha.never_below p hp
    · have := hb.never_below q hq
      have := ha.settled
      rw [List.count_append, List.count_append]
      omega

theorem parenthesize {a : List Char} (ha : Balanced a) : Balanced ('(' :: (a ++ [')'])) where
  settled := by
    have := ha.settled
    simp only [List.count_cons, List.count_append, List.count_nil]
    simp [this]
  never_below p hp := by
    rcases List.prefix_cons_iff.1 hp with rfl | ⟨q, rfl, hq⟩
    · simp
    have hone : ∀ t, t <+: [')'] → t.count ')' ≤ 1 + t.count '(' := by
      intro t ht
      have hlen := ht.length_le
      have hcount : t.count ')' ≤ t.length := List.count_le_length
      simp only [List.length_singleton] at hlen
      omega
    rcases prefix_append_cases hq with hq | ⟨t, ht, rfl⟩
    · have := ha.never_below q hq
      simp only [List.count_cons]
      simp
      omega
    · have := hone t ht
      have := ha.settled
      simp only [List.count_cons, List.count_append]
      simp
      omega

theorem intercalate {mark : List Char} (hmark : Balanced mark) {parts : List (List Char)}
    (h : ∀ p ∈ parts, Balanced p) : Balanced (mark.intercalate parts) := by
  induction parts with
  | nil => exact nil
  | cons p rest ih =>
    have hp := h p (List.mem_cons_self ..)
    have hrest := ih fun q hq => h q (List.mem_cons_of_mem _ hq)
    cases rest with
    | nil => simpa [List.intercalate_singleton] using hp
    | cons q more =>
      rw [List.intercalate_cons_cons, List.append_assoc]
      exact hp.append (hmark.append hrest)

end Balanced

/-! ## Inside a link -/

open Concordance.Link

/-- The two parentheses. -/
def parentheses : List Char := ['(', ')']

theorem notMem_triplet {d : Char} (hd : d ∈ parentheses) (b : UInt8) : d ∉ triplet b := by
  have hb : b.toNat < 256 := b.toNat_lt
  have hdigit : ∀ n < 16, upperHexDigit n ∉ parentheses := by decide
  have hpercent : '%' ∉ parentheses := by decide
  intro h
  simp only [triplet, List.mem_cons, List.not_mem_nil, or_false] at h
  rcases h with rfl | rfl | rfl
  · exact hpercent hd
  · exact hdigit _ (by omega) hd
  · exact hdigit _ (by omega) hd

/-- A character inside a link stands for itself, or neither it nor its form is a parenthesis. -/
theorem encodeChar_cases (c : Char) :
    encodeChar c = [c] ∨ ∀ d ∈ parentheses, d ∉ encodeChar c ∧ d ∉ [c] := by
  unfold encodeChar
  split
  · exact .inl rfl
  · rename_i hc
    have hfree : ∀ d ∈ parentheses, isUnreserved d = true := List.all_eq_true.1 (by decide)
    refine .inr fun d hd => ⟨fun h => ?_, fun h => ?_⟩
    · obtain ⟨b, -, hb⟩ := List.mem_flatMap.1 h
      exact notMem_triplet hd b hb
    · exact hc (List.mem_singleton.1 h ▸ hfree d hd)

theorem count_encodeChar {d : Char} (hd : d ∈ parentheses) (c : Char) :
    (encodeChar c).count d = [c].count d := by
  rcases encodeChar_cases c with h | h
  · rw [h]
  · rw [List.count_eq_zero_of_not_mem (h d hd).1, List.count_eq_zero_of_not_mem (h d hd).2]

theorem count_encodeChars {d : Char} (hd : d ∈ parentheses) (cs : List Char) :
    (encodeChars cs).count d = cs.count d := by
  induction cs with
  | nil => rfl
  | cons c rest ih =>
    calc (encodeChars (c :: rest)).count d
        = (encodeChar c).count d + (encodeChars rest).count d := List.count_append
      _ = [c].count d + rest.count d := by rw [count_encodeChar hd, ih]
      _ = (c :: rest).count d := List.count_append.symm

/-- A beginning of an encoded text has the parentheses of some beginning of the text. -/
theorem exists_prefix_count_eq {cs p : List Char} (h : p <+: encodeChars cs) :
    ∃ q, q <+: cs ∧ ∀ d ∈ parentheses, p.count d = q.count d := by
  induction cs generalizing p with
  | nil => exact ⟨[], List.nil_prefix, fun d _ => by rw [List.prefix_nil.1 h]⟩
  | cons c rest ih =>
    rcases prefix_append_cases (b := encodeChars rest) h with h | ⟨t, ht, rfl⟩
    · rcases encodeChar_cases c with hc | hc
      · rw [hc] at h
        exact ⟨p, h.trans (List.prefix_append [c] rest), fun d _ => rfl⟩
      · refine ⟨[], List.nil_prefix, fun d hd => ?_⟩
        exact List.count_eq_zero_of_not_mem fun hmem => (hc d hd).1 (h.subset hmem)
    · obtain ⟨q, hq, hcount⟩ := ih ht
      refine ⟨c :: q, (List.prefix_cons_inj c).2 hq, fun d hd => ?_⟩
      calc (encodeChar c ++ t).count d = (encodeChar c).count d + t.count d := List.count_append
        _ = [c].count d + q.count d := by rw [count_encodeChar hd, hcount d hd]
        _ = (c :: q).count d := List.count_append.symm

/-- A balanced text is balanced inside a link. -/
theorem balanced_encodeChars {cs : List Char} (h : Balanced cs) : Balanced (encodeChars cs) where
  settled := by
    rw [count_encodeChars (by decide), count_encodeChars (by decide), h.settled]
  never_below p hp := by
    obtain ⟨q, hq, hcount⟩ := exists_prefix_count_eq hp
    rw [hcount ')' (by decide), hcount '(' (by decide)]
    exact h.never_below q hq

end Concordance.Text
