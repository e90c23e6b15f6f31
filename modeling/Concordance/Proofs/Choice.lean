import Concordance.Choice.Reading
import Concordance.Proofs.Term

/-!
# Options by name

* `Says` — a text says a name: in any mix of cases, and with white space around it.
* `lowerName_of_says` — such a text is read as that name.
* `Strategy.ofValue?_of_says` — and so as the strategy of that name.
-/

namespace Concordance

namespace Text

/-- The text says a name, in any mix of cases and with white space around it. -/
def Says (name s : String) : Prop :=
  ∃ before core after, s.toList = before ++ core ++ after ∧ (∀ c ∈ before, isBlank c = true) ∧
    (∀ c ∈ after, isBlank c = true) ∧ core.map Char.toLower = name.toList

/-- White space has no other case. -/
theorem toLower_eq_self_of_isBlank {c : Char} (h : isBlank c = true) : c.toLower = c := by
  refine dif_neg ?_
  rintro ⟨hlow, hhigh⟩
  have hlow' : 65 ≤ c.toNat := hlow
  have hhigh' : c.toNat ≤ 90 := hhigh
  simp only [isBlank, blanks, inRanges, List.any_cons, List.any_nil, Bool.or_false, Bool.or_eq_true,
    Bool.and_eq_true, decide_eq_true_eq] at h
  omega

/-- A text that says a name without white space is read as that name. -/
theorem lowerName_of_says {name s : String} (hname : ∀ c ∈ name.toList, isBlank c = false)
    (h : Says name s) : lowerName s = name := by
  obtain ⟨before, core, after, hs, hbefore, hafter, hlower⟩ := h
  have hplain : ∀ c ∈ core, isBlank c = false := by
    intro c hc
    have hmem : c.toLower ∈ name.toList := hlower ▸ List.mem_map_of_mem hc
    refine Bool.eq_false_iff.2 fun hblank => ?_
    have hblank' := hname _ hmem
    rw [toLower_eq_self_of_isBlank hblank, hblank] at hblank'
    cases hblank'
  rw [lowerName, hs, trimChars_padded hbefore hafter hplain, hlower, String.ofList_toList]

/-- A text that says a name is not empty. -/
theorem Says.ne_empty {name s : String} (hne : name.toList ≠ []) (h : Says name s) : s ≠ "" := by
  obtain ⟨before, core, after, hs, -, -, hlower⟩ := h
  rintro rfl
  have hcore : core = [] := by simpa using (List.append_eq_nil_iff.1
    (List.append_eq_nil_iff.1 hs.symm).1).2
  exact hne (by rw [← hlower, hcore]; rfl)

end Text

namespace Strategy

open Concordance.Text

theorem name_toList_ne_nil (t : Strategy) : t.name.toList ≠ [] := by
  cases t <;> decide

theorem isBlank_of_mem_name {t : Strategy} : ∀ c ∈ t.name.toList, isBlank c = false := by
  have hall : t.name.toList.all (fun c => !isBlank c) = true := by cases t <;> decide +kernel
  simpa using hall

theorem ofAlias?_name (t : Strategy) : ofAlias? t.name = some t := by
  have hname : t.name ≠ "medieval" := by cases t <;> decide
  rw [ofAlias?, if_neg hname, ofName?_name]

theorem ofValue?_of_says {t : Strategy} {s : String} (h : Says t.name s) :
    ofValue? (.text s) = some t := by
  have hgiven : (Value.text s).orElse (.text "") = .text s := by
    simp [Value.orElse, Value.truthy, h.ne_empty t.name_toList_ne_nil]
  show ofAlias? (lowerName ((Value.text s).orElse (.text "")).display) = some t
  rw [hgiven, Value.display, Value.displayChars, String.ofList_toList,
    lowerName_of_says isBlank_of_mem_name h, ofAlias?_name]

end Strategy

end Concordance
