import Concordance.Proofs.Term
import Concordance.Service
import Mathlib.Data.List.Forall2

/-!
# Terms forget what cannot stand in them

Of what was typed for a term, the characters that no term holds make no difference, and neither does
white space outside of the others, wherever in the text either stands: first the other characters
are dropped and then the white space, so that none is left between a word and what was dropped.

* `Allowed`, `kept` — the characters that a term may hold, and those of a text.
* `Alike` — two texts keep the same but for white space outside.
* `cleanText_eq_iff` — exactly then they have the same term.
* `Request.Retyped` — a request with terms that are alike in the place of its own.
* `terms_forget_other_characters` — the main statement.
-/

namespace Concordance

namespace Term

open Concordance.Text

/-! ## What a term keeps -/

/-- The characters that a term may hold: the letters and digits of ASCII, the letters of Latin-1 and
Latin Extended-A, of whose range the signs `×` and `÷` are none, white space, hyphen, apostrophe. -/
def Allowed (c : Char) : Prop :=
  'a' ≤ c ∧ c ≤ 'z' ∨ 'A' ≤ c ∧ c ≤ 'Z' ∨ '0' ≤ c ∧ c ≤ '9' ∨
    0xC0 ≤ c.toNat ∧ c.toNat ≤ 0x17F ∧ c ≠ '×' ∧ c ≠ '÷' ∨ isBlank c = true ∨ c = '-' ∨ c = '\''

instance : DecidablePred Allowed := fun _ => inferInstanceAs (Decidable (_ ∨ _))

theorem accented_iff {c : Char} : inRanges accentedLetters c.toNat = true ↔
    0xC0 ≤ c.toNat ∧ c.toNat ≤ 0x17F ∧ c ≠ '×' ∧ c ≠ '÷' := by
  have htimes : c = '×' ↔ c.toNat = 0xD7 := Char.toNat_inj.symm
  have hdivided : c = '÷' ↔ c.toNat = 0xF7 := Char.toNat_inj.symm
  simp only [accentedLetters, inRanges, List.any_cons, List.any_nil, Bool.or_false, Bool.or_eq_true,
    Bool.and_eq_true, decide_eq_true_eq, ne_eq, htimes, hdivided]
  omega

theorem isTermChar_iff {c : Char} : isTermChar c = true ↔ Allowed c := by
  simp only [isTermChar, Allowed, Bool.or_eq_true, isAlphanum_iff, accented_iff, beq_iff_eq,
    or_assoc]

/-- The characters of a text that a term may hold. -/
def kept (s : String) : List Char :=
  s.toList.filter fun c => Allowed c

theorem filter_isTermChar (cs : List Char) :
    cs.filter isTermChar = cs.filter fun c => Allowed c := by
  refine List.filter_congr fun c _ => ?_
  rw [Bool.eq_iff_iff, isTermChar_iff, decide_eq_true_eq]

theorem toList_cleanText_eq (s : String) : (cleanText s).toList = trimChars (kept s) := by
  rw [toList_cleanText, cleanChars, filter_isTermChar, kept]

/-- Two texts keep the same but for white space outside. -/
def Alike (s t : String) : Prop :=
  ∃ core, Padded core (kept s) ∧ Padded core (kept t)

/-- Texts have the same term exactly if they are alike. -/
theorem cleanText_eq_iff {s t : String} : cleanText s = cleanText t ↔ Alike s t := by
  rw [← String.toList_inj, toList_cleanText_eq, toList_cleanText_eq, trimChars_eq_trimChars_iff,
    Alike]

theorem kept_insert (before after : String) {other : String} (h : ∀ c ∈ other.toList, ¬Allowed c) :
    kept (before ++ other ++ after) = kept (before ++ after) := by
  have hnone : kept other = [] := List.filter_eq_nil_iff.2 fun c hc => by simpa using h c hc
  unfold kept at hnone ⊢
  simp only [String.toList_append, List.filter_append, hnone, List.append_nil]

theorem cleanText_insert (before after : String) {other : String}
    (h : ∀ c ∈ other.toList, ¬Allowed c) :
    cleanText (before ++ other ++ after) = cleanText (before ++ after) := by
  rw [← String.toList_inj, toList_cleanText_eq, toList_cleanText_eq, kept_insert before after h]

/-! ## Values that are typed alike -/

/-- The same value, or another text that is alike. -/
def SameTerm (v w : Value) : Prop :=
  v = w ∨ ∃ s t, v.text? = some s ∧ w.text? = some t ∧ Alike s t

theorem SameTerm.clean_eq {v w : Value} (h : SameTerm v w) : clean v = clean w := by
  rcases h with rfl | ⟨s, t, hs, ht, halike⟩
  · rfl
  · rw [clean, clean, hs, ht]
    exact cleanText_eq_iff.2 halike

/-- The same item of a list of contexts, or another text without commas that is alike. -/
def SameContext (v w : Value) : Prop :=
  v = w ∨ ∃ s t, v.text? = some s ∧ w.text? = some t ∧ ',' ∉ s.toList ∧ ',' ∉ t.toList ∧ Alike s t

/-- The same contexts: a list of contexts that are the same one by one, or a text, not blank, in
which what stands between the commas is alike one by one. -/
inductive SameContexts : Value → Value → Prop
  | same (v : Value) : SameContexts v v
  | list {items items' : List Value} (h : List.Forall₂ SameContext items items') :
    SameContexts (.list items) (.list items')
  | text {v w : Value} {s t : String} (hs : v.text? = some s) (ht : w.text? = some t)
    (hnames : trim s ≠ "") (hnames' : trim t ≠ "")
    (h : List.Forall₂ Alike (commaPieces s) (commaPieces t)) : SameContexts v w

theorem map_cleanText_of_alike {ss ts : List String} (h : List.Forall₂ Alike ss ts) :
    ss.map cleanText = ts.map cleanText := by
  induction h with
  | nil => rfl
  | cons halike _ ih => rw [List.map_cons, List.map_cons, cleanText_eq_iff.2 halike, ih]

theorem commaPieces_alike {items items' : List Value} (h : List.Forall₂ SameContext items items') :
    List.Forall₂ Alike ((items.filterMap Value.text?).flatMap commaPieces)
      ((items'.filterMap Value.text?).flatMap commaPieces) := by
  have hself (s : String) : Alike s s := cleanText_eq_iff.1 rfl
  induction h with
  | nil => exact .nil
  | cons hitem _ ih =>
    rcases hitem with rfl | ⟨s, t, hs, ht, hcomma, hcomma', halike⟩
    · simp only [List.filterMap_cons]
      split
      · exact ih
      · exact List.rel_append (List.forall₂_same.2 fun s _ => hself s) ih
    · have hpieces : commaPieces s = [s] := by simp [commaPieces, pieces_eq_singleton hcomma]
      have hpieces' : commaPieces t = [t] := by simp [commaPieces, pieces_eq_singleton hcomma']
      simp only [List.filterMap_cons, hs, ht, List.flatMap_cons, hpieces, hpieces']
      exact .cons halike ih

theorem contextTerms_eq_of_alike {v w : Value}
    (h : List.Forall₂ Alike (contextPieces v) (contextPieces w)) :
    contextTerms v = contextTerms w := by
  rw [contextTerms, contextTerms, map_cleanText_of_alike h]

theorem contextPieces_of_text {v : Value} {s : String} (h : v.text? = some s) :
    contextPieces v = commaPieces s := by
  cases v with
  | text t =>
    obtain rfl : t = s := Option.some.inj h
    rfl
  | choice c =>
    obtain rfl : c.name = s := Option.some.inj h
    rfl
  | null | bool | int | float | bytes | list | record => cases h

theorem SameContexts.contextTerms_eq {v w : Value} (h : SameContexts v w) :
    contextTerms v = contextTerms w := by
  cases h with
  | same => rfl
  | list hitems => exact contextTerms_eq_of_alike (commaPieces_alike hitems)
  | text hs ht _ _ halike =>
    refine contextTerms_eq_of_alike ?_
    rw [contextPieces_of_text hs, contextPieces_of_text ht]
    exact halike

theorem SameContexts.namesContexts_eq {v w : Value} (h : SameContexts v w) :
    namesContexts v = namesContexts w := by
  cases h with
  | same => rfl
  | list hitems =>
    cases hitems with
    | nil => rfl
    | cons => rfl
  | text hs ht hnames hnames' _ =>
    rw [namesContexts, namesContexts, hs, ht]
    exact (bne_iff_ne.2 hnames).trans (bne_iff_ne.2 hnames').symm

end Term

/-! ## Requests that are typed alike -/

namespace Request

open Concordance.Term Concordance.Query

/-- A request with terms, or contexts, that are the same in the place of its own. -/
inductive Retyped : Request → Request → Prop
  | proximity (r : Proximity) {v w : Value} (h1 : SameTerm r.term1 v) (h2 : SameTerm r.term2 w) :
    Retyped (.proximity r) (.proximity { r with term1 := v, term2 := w })
  | variation (r : Variation) {v w : Value} (h1 : SameTerm r.term1 v) (h2 : SameTerm r.term2 w) :
    Retyped (.variation r) (.variation { r with term1 := v, term2 := w })
  | semantic (r : Semantic) {v w : Value} (h : SameTerm r.central v)
    (hcontexts : SameContexts r.contexts w) :
    Retyped (.semantic r) (.semantic { r with central := v, contexts := w })
  | bundle (r : BundleRequest) {v : Value} (h : SameTerm r.word v) :
    Retyped (.bundle r) (.bundle { r with word := v })

theorem Retyped.compile_eq {r r' : Request} (h : Retyped r r') (config : Config) :
    r'.compile config = r.compile config := by
  cases h with
  | proximity r h1 h2 =>
    simp only [compile, Proximity.compile, ← h1.clean_eq, ← h2.clean_eq]
  | variation r h1 h2 =>
    simp only [compile, Variation.compile, ← h1.clean_eq, ← h2.clean_eq]
    rfl
  | semantic r h hcontexts =>
    simp only [compile, Semantic.compile, ← h.clean_eq, ← hcontexts.contextTerms_eq,
      ← hcontexts.namesContexts_eq]
  | bundle r h =>
    simp only [compile, BundleRequest.compile, ← h.clean_eq]

end Request

open Term Text in
/-- **Terms forget the characters that they cannot hold, and white space outside of the others.**
Two texts have the same term exactly if what they keep is the same but for white space outside; so
other characters make no difference wherever they stand.  The term is what is kept without the white
space around it, and has itself for its term.  A request with terms that are alike in the place of
its own comes to the same, whatever it comes to. -/
theorem terms_forget_other_characters :
    (∀ s t, cleanText s = cleanText t ↔ Alike s t) ∧
    (∀ before other after : String, (∀ c ∈ other.toList, ¬Allowed c) →
      cleanText (before ++ other ++ after) = cleanText (before ++ after)) ∧
    (∀ s, IsTrimmed (kept s) (cleanText s).toList) ∧
    (∀ s, cleanText (cleanText s) = cleanText s) ∧
    ∀ (config : Config) (r r' : Request), r.Retyped r' → r'.compile config = r.compile config := by
  refine ⟨fun s t => cleanText_eq_iff, ?_, ?_, cleanText_cleanText, ?_⟩
  · intro before other after hother
    exact cleanText_insert before after hother
  · intro s
    exact isTrimmed_iff.2 (toList_cleanText_eq s)
  · intro config r r' h
    exact h.compile_eq config

open Term Text in
/-- A term with a mark at each end, one of them behind white space, and marks inside. -/
theorem marks_in_and_around_term_are_forgotten :
    let plain : Query.Proximity := { term1 := .text "fides", term2 := .text "spes" }
    let marked : Query.Proximity := { plain with term1 := .text "@ fi<de>s\u3000#" }
    cleanText "@ fi<de>s\u3000#" = "fides" ∧
      (Request.proximity marked).compile {} = (Request.proximity plain).compile {} := by
  intro plain marked
  have halike : Alike "fides" "@ fi<de>s\u3000#" :=
    ⟨"fides".toList, ⟨[], [], by simp, by simp, by decide +kernel⟩,
      ⟨[' '], ['\u3000'], List.forall_mem_singleton.2 (by decide),
        List.forall_mem_singleton.2 (by decide), by decide +kernel⟩⟩
  obtain ⟨hterms, -, -, -, hrequests⟩ := terms_forget_other_characters
  refine ⟨((hterms _ _).2 halike).symm.trans (by decide +kernel), ?_⟩
  exact hrequests {} _ _ (.proximity plain (.inr ⟨_, _, rfl, rfl, halike⟩) (.inl rfl))

end Concordance
