import Concordance.Text.Blank
import Mathlib.Data.List.DropRight
import Mathlib.Data.List.TakeWhile

/-!
# White space around a text

* `trimStart_append`, `trimEnd_append` — white space at an end is trimmed.
* `Padded` — a text with white space around it, of which nothing is left.
* `trimChars_eq_trimChars_iff` — texts are trimmed to the same if they differ in such white space.
* `IsTrimmed`, `isTrimmed_iff` — what trimming leaves: it neither begins nor ends with white space.
-/

namespace Concordance.Text

variable {core cs : List Char}

/-! ## Both ends -/

theorem trimStart_append {before : List Char} (hbefore : ∀ c ∈ before, isBlank c = true)
    (cs : List Char) : trimStart (before ++ cs) = trimStart cs :=
  List.dropWhile_append_of_pos hbefore

theorem trimEnd_append {after : List Char} (hafter : ∀ c ∈ after, isBlank c = true)
    (cs : List Char) : trimEnd (cs ++ after) = trimEnd cs := by
  have hreverse : ∀ c ∈ after.reverse, isBlank c = true :=
    fun c hc => hafter c (List.mem_reverse.1 hc)
  rw [trimEnd, List.reverse_append, trimStart_append hreverse]
  rfl

theorem trimStart_eq_self_iff : trimStart cs = cs ↔ ∀ c, cs.head? = some c → isBlank c = false := by
  rw [trimStart, List.dropWhile_eq_self_iff]
  cases cs with
  | nil => simp
  | cons c rest => simp

theorem trimEnd_eq_self_iff : trimEnd cs = cs ↔ ∀ c, cs.getLast? = some c → isBlank c = false := by
  rw [trimEnd, List.reverse_eq_iff, trimStart_eq_self_iff, List.head?_reverse]

theorem trimStart_trimStart (cs : List Char) : trimStart (trimStart cs) = trimStart cs :=
  List.dropWhile_idempotent isBlank cs

theorem trimEnd_trimEnd (cs : List Char) : trimEnd (trimEnd cs) = trimEnd cs := by
  simp only [trimEnd, List.reverse_reverse, trimStart_trimStart]

theorem trimEnd_prefix_self (cs : List Char) : trimEnd cs <+: cs := by
  have h : trimStart cs.reverse <:+ cs.reverse := List.dropWhile_suffix _
  simpa [trimEnd] using List.reverse_prefix.2 h

/-- Trimming the end uncovers no white space at the start. -/
theorem trimStart_trimChars (cs : List Char) : trimStart (trimChars cs) = trimChars cs := by
  unfold trimChars
  cases hs : trimStart cs with
  | nil => rfl
  | cons c rest =>
    have hself : trimStart (c :: rest) = c :: rest := hs ▸ trimStart_trimStart cs
    have hc : isBlank c = false := by
      exact Bool.eq_false_iff.2 (List.dropWhile_eq_self_iff.1 hself (by simp))
    obtain ⟨tail, htail⟩ := trimEnd_prefix_self (c :: rest)
    cases he : trimEnd (c :: rest) with
    | nil => rfl
    | cons d more =>
      rw [he, List.cons_append, List.cons.injEq] at htail
      rw [htail.1]
      exact trimStart_eq_self hc

theorem trimChars_trimChars (cs : List Char) : trimChars (trimChars cs) = trimChars cs := by
  have h : trimChars (trimChars cs) = trimEnd (trimStart (trimChars cs)) := rfl
  rw [h, trimStart_trimChars]
  exact trimEnd_trimEnd _

theorem trimChars_sublist (cs : List Char) : (trimChars cs).Sublist cs :=
  (trimEnd_prefix_self _).sublist.trans (List.dropWhile_sublist _)

/-! ## White space around something -/

/-- White space stands around something, if anything does. -/
def Padded (core cs : List Char) : Prop :=
  ∃ before after, (∀ c ∈ before, isBlank c = true) ∧ (∀ c ∈ after, isBlank c = true) ∧
    cs = before ++ core ++ after

/-- What white space stands around is trimmed as if it stood alone. -/
theorem Padded.trimChars_eq (h : Padded core cs) : trimChars cs = trimChars core := by
  obtain ⟨before, after, hbefore, hafter, rfl⟩ := h
  by_cases hcore : ∀ c ∈ core, isBlank c = true
  · have hall : ∀ c ∈ before ++ core ++ after, isBlank c = true := by
      simp only [List.mem_append]
      rintro c ((hc | hc) | hc)
      · exact hbefore c hc
      · exact hcore c hc
      · exact hafter c hc
    rw [trimChars_eq_nil_iff.2 hall, trimChars_eq_nil_iff.2 hcore]
  · have hne : trimStart core ≠ [] := mt trimStart_eq_nil_iff.1 hcore
    have hstart : trimStart (before ++ core ++ after) = trimStart core ++ after := by
      rw [List.append_assoc, trimStart_append hbefore, trimStart, List.dropWhile_append]
      exact if_neg (mt List.isEmpty_iff.1 hne)
    rw [trimChars, hstart, trimEnd_append hafter, trimChars]

theorem padded_trimChars (cs : List Char) : Padded (trimChars cs) cs := by
  have hblank (xs : List Char) : ∀ c ∈ xs.takeWhile isBlank, isBlank c = true :=
    fun c hc => List.mem_takeWhile_imp hc
  have hstart : cs = cs.takeWhile isBlank ++ trimStart cs := List.takeWhile_append_dropWhile.symm
  have hend : trimStart cs =
      trimChars cs ++ ((trimStart cs).reverse.takeWhile isBlank).reverse := by
    have hsplit : (trimStart cs).reverse =
        (trimStart cs).reverse.takeWhile isBlank ++ trimStart (trimStart cs).reverse :=
      List.takeWhile_append_dropWhile.symm
    have hreverse := congrArg List.reverse hsplit
    rwa [List.reverse_reverse, List.reverse_append] at hreverse
  refine ⟨cs.takeWhile isBlank, ((trimStart cs).reverse.takeWhile isBlank).reverse, hblank cs,
    fun c hc => hblank _ c (List.mem_reverse.1 hc), ?_⟩
  rw [List.append_assoc, ← hend]
  exact hstart

/-- Two texts are trimmed to the same if they are one text but for white space around it. -/
theorem trimChars_eq_trimChars_iff {cs ds : List Char} :
    trimChars cs = trimChars ds ↔ ∃ core, Padded core cs ∧ Padded core ds := by
  constructor
  · intro h
    exact ⟨trimChars cs, padded_trimChars cs, h ▸ padded_trimChars ds⟩
  · rintro ⟨core, hcs, hds⟩
    rw [hcs.trimChars_eq, hds.trimChars_eq]

/-- A text without the white space around it: it neither begins nor ends with any. -/
structure IsTrimmed (cs core : List Char) : Prop where
  padded : Padded core cs
  head : ∀ c, core.head? = some c → isBlank c = false
  last : ∀ c, core.getLast? = some c → isBlank c = false

theorem isTrimmed_iff : IsTrimmed cs core ↔ core = trimChars cs := by
  constructor
  · intro h
    have hstart : trimStart core = core := trimStart_eq_self_iff.2 h.head
    have hend : trimEnd core = core := trimEnd_eq_self_iff.2 h.last
    rw [h.padded.trimChars_eq, trimChars, hstart, hend]
  · rintro rfl
    exact
      { padded := padded_trimChars cs
        head := trimStart_eq_self_iff.1 (trimStart_trimChars cs)
        last := trimEnd_eq_self_iff.1 (trimEnd_trimEnd _) }

/-- White space around what neither is empty nor holds any is trimmed. -/
theorem trimChars_padded {before core after : List Char}
    (hbefore : ∀ c ∈ before, isBlank c = true) (hafter : ∀ c ∈ after, isBlank c = true)
    (hcore : ∀ c ∈ core, isBlank c = false) : trimChars (before ++ core ++ after) = core := by
  have htrimmed : IsTrimmed (before ++ core ++ after) core :=
    { padded := ⟨before, after, hbefore, hafter, rfl⟩
      head := fun c hc => hcore c (List.mem_of_head? hc)
      last := fun c hc => hcore c (List.mem_of_getLast? hc) }
  exact (isTrimmed_iff.1 htrimmed).symm

end Concordance.Text
