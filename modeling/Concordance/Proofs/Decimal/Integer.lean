import Concordance.Decimal.Integer
import Concordance.Proofs.Distance

/-!
# The number that a whole text denotes

A text denotes a whole number if it consists of padding, an optional sign, digits of any script with
single underscores between them, and padding again, and has no more digits than are read.

* `IsRun` — digits with single underscores between them.
* `Denotes` — the texts of whole numbers, with their numbers.
* `readInt_eq_number_iff` — exactly these texts are read, each as the number that it denotes.
-/

namespace Concordance.Decimal

open Concordance.Text Concordance.Distance

/-- Digits of any script with single underscores between them, and these digits alone. -/
inductive IsRun : List Char → List Char → Prop
  | single {c : Char} (hc : (digitValue? c).isSome = true) : IsRun [c] [c]
  | next {c : Char} {run digits : List Char} (hc : (digitValue? c).isSome = true)
    (hrun : IsRun run digits) : IsRun (c :: run) (c :: digits)
  | marked {c : Char} {run digits : List Char} (hc : (digitValue? c).isSome = true)
    (hrun : IsRun run digits) : IsRun (c :: '_' :: run) (c :: digits)

/-- The text consists of padding, an optional sign, a run of digits and padding; the run denotes the
number and has no more digits than are read. -/
inductive Denotes : List Char → Int → Prop
  | intro {before sign run digits after : List Char} {negative : Bool}
    (hbefore : ∀ c ∈ before, isPadding c = true) (hsign : IsSign sign negative)
    (hrun : IsRun run digits) (hlimit : digits.length ≤ digitLimit)
    (hafter : ∀ c ∈ after, isPadding c = true) :
    Denotes (before ++ (sign ++ (run ++ after))) (withSign negative (runNumber digits))

/-! ## Runs -/

section Runs

variable {run digits : List Char}

theorem digits_of_isRun (h : IsRun run digits) : Digits digits := by
  induction h with
  | single hc => simpa [Digits] using hc
  | next hc _ ih | marked hc _ ih => exact List.forall_mem_cons.2 ⟨hc, ih⟩

/-- A run begins with a digit, which is no underscore. -/
theorem IsRun.exists_cons (h : IsRun run digits) :
    ∃ c rest, run = c :: rest ∧ (digitValue? c).isSome = true := by
  cases h with
  | single hc | next hc | marked hc => exact ⟨_, _, rfl, hc⟩

theorem ne_mark_of_digit {c : Char} (h : (digitValue? c).isSome = true) : c ≠ '_' := by
  rintro rfl
  exact absurd h (by decide)

theorem digitRun_of_isRun (h : IsRun run digits) :
    digitRun run = some (digits.filterMap digitValue?) := by
  induction h with
  | @single c hc =>
    obtain ⟨d, hd⟩ := Option.isSome_iff_exists.1 hc
    simp [digitRun, hd]
  | @next c run digits hc hrun ih =>
    obtain ⟨d, hd⟩ := Option.isSome_iff_exists.1 hc
    obtain ⟨e, rest, rfl, he⟩ := hrun.exists_cons
    rw [digitRun, ih, hd, List.filterMap_cons_some hd]
    · rfl
    · simp
    · intro more heq
      exact ne_mark_of_digit he (List.cons.inj heq).1
  | @marked c run digits hc hrun ih =>
    obtain ⟨d, hd⟩ := Option.isSome_iff_exists.1 hc
    rw [digitRun, ih, hd, List.filterMap_cons_some hd]
    rfl

theorem exists_isRun {ds : List Nat} (h : digitRun run = some ds) :
    ∃ digits, IsRun run digits ∧ ds = digits.filterMap digitValue? := by
  fun_induction digitRun run generalizing ds with
  | case1 => cases h
  | case2 c =>
    obtain ⟨d, hd, rfl⟩ := Option.map_eq_some_iff.1 h
    exact ⟨[c], .single (by simp [hd]), by simp [hd]⟩
  | case3 c rest ih =>
    simp only [bind, Option.bind_eq_some_iff, pure, Option.some.injEq] at h
    obtain ⟨d, hd, es, hes, rfl⟩ := h
    obtain ⟨digits, hrun, rfl⟩ := ih hes
    exact ⟨c :: digits, .marked (by simp [hd]) hrun, by simp [hd]⟩
  | case4 c rest _ _ ih =>
    simp only [bind, Option.bind_eq_some_iff, pure, Option.some.injEq] at h
    obtain ⟨d, hd, es, hes, rfl⟩ := h
    obtain ⟨digits, hrun, rfl⟩ := ih hes
    exact ⟨c :: digits, .next (by simp [hd]) hrun, by simp [hd]⟩

end Runs

/-! ## Padding -/

theorem isPadding_of_digit {c : Char} (h : (digitValue? c).isSome = true) :
    isPadding c = false := by
  rw [isPadding, isBlank_of_digit h, Bool.false_and]

theorem isRunChar_of_isPadding {c : Char} (h : isPadding c = true) : isRunChar c = false := by
  rw [isRunChar, Bool.or_eq_false_iff]
  constructor
  · rw [beq_eq_false_iff_ne]
    rintro rfl
    exact absurd h (by decide)
  · by_contra hdigit
    rw [isPadding_of_digit (Bool.of_not_eq_false hdigit)] at h
    cases h

theorem isRunChar_of_isRun {run digits : List Char} (h : IsRun run digits) :
    ∀ c ∈ run, isRunChar c = true := by
  have hdigit : ∀ {c : Char}, (digitValue? c).isSome = true → isRunChar c = true := by
    intro c hc
    rw [isRunChar, hc, Bool.or_true]
  induction h with
  | single hc => simpa using hdigit hc
  | next hc _ ih => exact List.forall_mem_cons.2 ⟨hdigit hc, ih⟩
  | marked hc _ ih =>
    exact List.forall_mem_cons.2 ⟨hdigit hc, List.forall_mem_cons.2 ⟨rfl, ih⟩⟩

/-- A run ends where padding begins. -/
theorem span_run {run digits after : List Char} (hrun : IsRun run digits)
    (hafter : ∀ c ∈ after, isPadding c = true) :
    (run ++ after).takeWhile isRunChar = run ∧ (run ++ after).dropWhile isRunChar = after := by
  have hchars := isRunChar_of_isRun hrun
  rw [List.takeWhile_append_of_pos hchars, List.dropWhile_append_of_pos hchars]
  cases after with
  | nil => simp
  | cons c rest =>
    have hc := isRunChar_of_isPadding (hafter c (List.mem_cons_self ..))
    simp [hc]

/-- A sign is split off behind padding, and no digit is taken for one. -/
theorem splitSign_dropPadding {before sign run digits : List Char} {negative : Bool}
    (hbefore : ∀ c ∈ before, isPadding c = true) (hsign : IsSign sign negative)
    (hrun : IsRun run digits) (rest : List Char) :
    splitSign ((before ++ (sign ++ (run ++ rest))).dropWhile isPadding) =
      (negative, run ++ rest) := by
  rw [List.dropWhile_append_of_pos hbefore]
  cases hsign with
  | minus => rfl
  | plus => rfl
  | none =>
    obtain ⟨c, more, rfl, hc⟩ := hrun.exists_cons
    have hminus : c ≠ '-' := by
      rintro rfl
      exact absurd hc (by decide)
    have hplus : c ≠ '+' := by
      rintro rfl
      exact absurd hc (by decide)
    have hpadding : ¬isPadding c = true := by rw [isPadding_of_digit hc]; exact Bool.false_ne_true
    rw [List.nil_append, List.cons_append, List.dropWhile_cons_of_neg hpadding]
    simp [splitSign, hminus, hplus]

/-! ## Reading -/

theorem readInt_of_denotes {cs : List Char} {n : Int} (h : Denotes cs n) :
    readInt cs = .number n := by
  obtain ⟨hbefore, hsign, hrun, hlimit, hafter⟩ := h
  obtain ⟨htake, hdrop⟩ := span_run hrun hafter
  have hlength := length_filterMap_digits (digits_of_isRun hrun)
  unfold readInt
  rw [splitSign_dropPadding hbefore hsign hrun]
  simp only [htake, hdrop, digitRun_of_isRun hrun, hlength, if_neg (Nat.not_lt.2 hlimit),
    List.all_eq_true.2 hafter, if_true, ofDigits_eq]
  rfl

theorem denotes_of_readInt {cs : List Char} {n : Int} (h : readInt cs = .number n) :
    Denotes cs n := by
  obtain ⟨sign, hsign, htail⟩ := exists_sign (cs.dropWhile isPadding)
  unfold readInt at h
  cases hsplit : splitSign (cs.dropWhile isPadding) with
  | mk negative body =>
    rw [hsplit] at hsign htail h
    dsimp only at hsign htail h
    cases hdigits : digitRun (body.takeWhile isRunChar) with
    | none => simp [hdigits] at h
    | some ds =>
      obtain ⟨digits, hrun, rfl⟩ := exists_isRun hdigits
      have hlength := length_filterMap_digits (digits_of_isRun hrun)
      rw [hdigits] at h
      dsimp only at h
      split at h
      · cases h
      · rename_i hlimit
        rw [hlength, Nat.not_lt] at hlimit
        split at h
        · rename_i hafter
          have hcs : cs = cs.takeWhile isPadding ++ (sign ++ (body.takeWhile isRunChar ++
              body.dropWhile isRunChar)) := by
            rw [List.takeWhile_append_dropWhile, ← htail, List.takeWhile_append_dropWhile]
          have hbefore : ∀ c ∈ cs.takeWhile isPadding, isPadding c = true := by
            intro c hc
            exact List.mem_takeWhile_imp hc
          have hdenotes := Denotes.intro hbefore hsign hrun hlimit (List.all_eq_true.1 hafter)
          rw [← hcs] at hdenotes
          have hn : withSign negative (runNumber digits) = n := by
            rw [withSign, runNumber, ← ofDigits_eq]
            exact IntReading.number.inj h
          exact hn ▸ hdenotes
        · cases h

/-- **Exactly the texts of whole numbers are read, each as the number that it denotes.** -/
theorem readInt_eq_number_iff {cs : List Char} {n : Int} :
    readInt cs = .number n ↔ Denotes cs n :=
  ⟨denotes_of_readInt, readInt_of_denotes⟩

theorem Denotes.unique {cs : List Char} {m n : Int} (h : Denotes cs m) (h' : Denotes cs n) :
    m = n := by
  have hread := readInt_eq_number_iff.2 h
  rw [readInt_eq_number_iff.2 h'] at hread
  exact (IntReading.number.inj hread).symm

end Concordance.Decimal
