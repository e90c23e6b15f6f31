import Concordance.Proofs.Text.Trim
import Concordance.Term

/-!
# Terms are fixed by cleaning

* `IsTerm` — a text that is not empty and that cleaning leaves as it is.
* `cleanText_cleanText` — cleaning twice is cleaning once.
* `isTermChar_of_isTerm` — every character of a term is one that a term may hold; so no term holds
  a comma, a quote, a bracket or a bar (`notMem_of_isTerm`).
* `isTerm_clean`, `isTerm_of_mem_contextTerms` — what a request is compiled from is terms.
* `contextTerms_texts` — distinct terms are the context terms of the list of them.
-/

namespace Concordance

namespace Term

open Concordance.Text

/-! ## Cleaning -/

theorem isTermChar_of_mem_cleanChars {c : Char} {cs : List Char} (h : c ∈ cleanChars cs) :
    isTermChar c = true :=
  (List.mem_filter.1 ((trimChars_sublist _).subset h)).2

theorem cleanChars_cleanChars (cs : List Char) : cleanChars (cleanChars cs) = cleanChars cs := by
  have h : (cleanChars cs).filter isTermChar = cleanChars cs :=
    List.filter_eq_self.2 fun c hc => isTermChar_of_mem_cleanChars hc
  calc cleanChars (cleanChars cs) = trimChars (cleanChars cs) := by rw [cleanChars, h]
    _ = cleanChars cs := trimChars_trimChars _

theorem cleanText_cleanText (s : String) : cleanText (cleanText s) = cleanText s := by
  simp [cleanText, cleanChars_cleanChars]

/-- A text that is not empty and that cleaning leaves as it is. -/
structure IsTerm (s : String) : Prop where
  ne_empty : s ≠ ""
  cleanText_eq : cleanText s = s

theorem isTerm_cleanText {s : String} (h : cleanText s ≠ "") : IsTerm (cleanText s) :=
  ⟨h, cleanText_cleanText s⟩

theorem isTerm_clean {v : Value} (h : clean v ≠ "") : IsTerm (clean v) := by
  unfold clean at h ⊢
  split
  · rename_i s hs
    rw [hs] at h
    exact isTerm_cleanText h
  · rename_i hs
    rw [hs] at h
    exact absurd rfl h

theorem isTermChar_of_isTerm {s : String} (h : IsTerm s) : ∀ c ∈ s.toList, isTermChar c = true := by
  intro c hc
  rw [← h.cleanText_eq, toList_cleanText] at hc
  exact isTermChar_of_mem_cleanChars hc

theorem notMem_of_isTerm {s : String} (h : IsTerm s) {c : Char} (hc : isTermChar c = false) :
    c ∉ s.toList := by
  intro hmem
  rw [isTermChar_of_isTerm h c hmem] at hc
  cases hc

@[simp]
theorem clean_of_isTerm {s : String} (h : IsTerm s) : clean (.text s) = s := by
  rw [clean_text, h.cleanText_eq]

/-! ## Context terms -/

theorem isTerm_of_mem_contextTerms {v : Value} {t : String} (h : t ∈ contextTerms v) :
    IsTerm t := by
  simp only [contextTerms, mem_firstSeen, List.mem_filter, List.mem_map, decide_eq_true_eq] at h
  obtain ⟨⟨piece, -, rfl⟩, hne⟩ := h
  exact isTerm_cleanText hne

theorem nodup_contextTerms (v : Value) : (contextTerms v).Nodup :=
  nodup_firstSeen _

/-- A term is the only part between its commas. -/
theorem commaPieces_of_isTerm {s : String} (h : IsTerm s) : commaPieces s = [s] := by
  simp [commaPieces, pieces_eq_singleton (notMem_of_isTerm h (c := ',') (by decide))]

/-- Distinct terms are the context terms of the list of them. -/
theorem contextTerms_texts {ts : List String} (hterm : ∀ t ∈ ts, IsTerm t) (hts : ts.Nodup) :
    contextTerms (.list (ts.map .text)) = ts := by
  have hpieces : contextPieces (.list (ts.map .text)) = ts := by
    have htexts : (ts.map Value.text).filterMap Value.text? = ts := by
      rw [List.filterMap_map]
      exact List.filterMap_some
    show ((ts.map Value.text).filterMap Value.text?).flatMap commaPieces = ts
    rw [htexts, List.flatMap_def,
      List.map_congr_left fun t ht => commaPieces_of_isTerm (hterm t ht)]
    simp [← List.flatMap_def]
  have hclean : ts.map cleanText = ts :=
    (List.map_congr_left fun t ht => (hterm t ht).cleanText_eq).trans (List.map_id _)
  have hkeep : ts.filter (fun t => t ≠ "") = ts :=
    List.filter_eq_self.2 fun t ht => by simpa using (hterm t ht).ne_empty
  rw [contextTerms, hpieces, hclean, hkeep, firstSeen_eq_self hts]

end Term

end Concordance
