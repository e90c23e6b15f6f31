import Concordance.Distance
import Concordance.Proofs.Text.Trim
import Mathlib.Data.List.Basic
import Mathlib.Data.List.TakeWhile
import Mathlib.Data.Nat.Digits.Defs

/-!
# The number at the head of a text

A distance is typed as a text that begins with a number, in the digits of any script.  However many
digits it has, it is read as the number that they denote, kept within the bounds.  There is one
exception: a run of more digits than are converted counts as beyond all numbers, and only ASCII
zeros are dropped before the digits are counted, so zeros of another script can make a small number
look too long.

* `Begins` — a text begins with a signed run of digits; `runNumber`, `withSign` — their number.
* `leadingExtent?_of_begins`, `leadingExtent?_eq_none_iff` — what is read at the head of a text.
* `LooksTooLong` — the exception; `exists_zero_of_looksTooLong` — it takes a zero that is not ASCII.
* `clamp_extent` — apart from it, what is read is clamped as the number that is denoted.
* `begins_intChars` — a number as it is written begins with itself.
* `text_is_read_as_number` — the main statement.
* `zeros_of_other_script_look_too_long` — the exception arises.
-/

namespace Concordance

open Concordance.Text Concordance.Decimal

/-! ## Digits -/

namespace Text

/-- No digit of any script is white space. -/
theorem isBlank_of_digit {c : Char} (h : (digitValue? c).isSome = true) : isBlank c = false := by
  have hzeros : ∀ first ∈ decimalZeros, ∀ k < 10, inRanges blanks (first + k) = false := by
    decide +kernel
  obtain ⟨d, hd⟩ := Option.isSome_iff_exists.1 h
  unfold digitValue? at hd
  obtain ⟨first, hfirst, -⟩ := Option.map_eq_some_iff.1 hd
  have hbounds := List.find?_some hfirst
  simp only [Bool.and_eq_true, decide_eq_true_eq] at hbounds
  have hblank := hzeros first (List.mem_of_find?_eq_some hfirst) (c.toNat - first) (by omega)
  rw [isBlank, show c.toNat = first + (c.toNat - first) by omega]
  exact hblank

/-- The digits of ASCII have the values that they have everywhere. -/
theorem digitValue?_of_isDigit {c : Char} (h : c.isDigit = true) :
    digitValue? c = some (c.toNat - '0'.toNat) := by
  have hfirst : '0'.toNat ≤ c.toNat ∧ c.toNat ≤ '0'.toNat + 9 := Char.isDigit_iff_toNat.1 h
  obtain ⟨more, hzeros⟩ : ∃ more, decimalZeros = '0'.toNat :: more := ⟨_, rfl⟩
  rw [digitValue?, hzeros]
  refine Option.map_eq_some_iff.2 ⟨'0'.toNat, ?_, rfl⟩
  exact List.find?_cons_of_pos (by simpa using hfirst)

end Text

namespace Distance

/-- The number of a run of digits, of any script. -/
def runNumber (run : List Char) : Nat :=
  Nat.ofDigits 10 (run.filterMap digitValue?).reverse

/-- The number with its sign. -/
def withSign (negative : Bool) (n : Nat) : Int :=
  if negative then -n else n

/-- All characters are digits, of any script. -/
def Digits (run : List Char) : Prop :=
  ∀ c ∈ run, (digitValue? c).isSome = true

/-- The text does not begin with a digit. -/
def NoDigitHead (rest : List Char) : Prop :=
  ∀ c more, rest = c :: more → digitValue? c = none

variable {run rest : List Char}

theorem ofDigits_eq (digits : List Nat) : ofDigits digits = Nat.ofDigits 10 digits.reverse := by
  rw [ofDigits, List.foldl_eq_foldr_reverse, Nat.ofDigits_eq_foldr]
  simp only [Nat.cast_id, Nat.add_comm]

theorem leadingDigits_append (hrun : Digits run) (hrest : NoDigitHead rest) :
    leadingDigits (run ++ rest) = run.filterMap digitValue? := by
  induction run with
  | nil =>
    cases rest with
    | nil => rfl
    | cons c more => simp [leadingDigits, hrest c more rfl]
  | cons c run ih =>
    obtain ⟨d, hd⟩ := Option.isSome_iff_exists.1 (hrun c (List.mem_cons_self ..))
    have hrest' := ih fun x hx => hrun x (List.mem_cons_of_mem _ hx)
    simp [leadingDigits, hd, hrest']

theorem length_filterMap_digits (hrun : Digits run) :
    (run.filterMap digitValue?).length = run.length := by
  induction run with
  | nil => rfl
  | cons c run ih =>
    obtain ⟨d, hd⟩ := Option.isSome_iff_exists.1 (hrun c (List.mem_cons_self ..))
    have hlength := ih fun x hx => hrun x (List.mem_cons_of_mem _ hx)
    simp [hd, hlength]

/-! ### ASCII zeros -/

theorem digits_dropZeros (hrun : Digits run) : Digits (dropZeros run) := by
  intro c hc
  exact hrun c ((List.dropWhile_suffix _).subset hc)

/-- The zeros that are dropped are those of the run, not those of what follows it. -/
theorem dropZeros_append (hrest : NoDigitHead rest) :
    dropZeros (run ++ rest) = dropZeros run ++ rest := by
  have hstop : dropZeros rest = rest := by
    cases rest with
    | nil => rfl
    | cons c more =>
      have hc : c ≠ '0' := by
        rintro rfl
        exact absurd (hrest '0' more rfl) (by decide)
      simp [dropZeros, hc]
  unfold dropZeros at hstop ⊢
  rw [List.dropWhile_append]
  split
  · rename_i hnil
    rw [List.isEmpty_iff.1 hnil, hstop, List.nil_append]
  · rfl

/-- Zeros in front do not change the number. -/
theorem runNumber_dropZeros (run : List Char) : runNumber (dropZeros run) = runNumber run := by
  induction run with
  | nil => rfl
  | cons c run ih =>
    by_cases hc : c = '0'
    · have hzero : digitValue? c = some 0 := by rw [hc]; decide
      have hdrop : dropZeros (c :: run) = dropZeros run := by simp [dropZeros, hc]
      rw [hdrop, ih, runNumber, runNumber, List.filterMap_cons_some hzero,
        Nat.ofDigits_reverse_zero_cons]
    · have hdrop : dropZeros (c :: run) = c :: run := by simp [dropZeros, hc]
      rw [hdrop]

theorem extentOf_append (negative : Bool) (hrun : Digits run) (hrest : NoDigitHead rest) :
    extentOf negative (run ++ rest) =
      if digitLimit < (dropZeros run).length then .beyond negative
      else .number (withSign negative (runNumber run)) := by
  have hdigits := digits_dropZeros hrun
  unfold extentOf
  rw [dropZeros_append hrest, leadingDigits_append hdigits hrest]
  simp only [length_filterMap_digits hdigits, ofDigits_eq]
  rw [← runNumber_dropZeros run, runNumber]
  rfl

/-! ### Repeated zeros -/

theorem digits_replicate {c : Char} (n : Nat) (hc : (digitValue? c).isSome = true)
    (hrun : Digits run) : Digits (List.replicate n c ++ run) := by
  intro d hd
  rcases List.mem_append.1 hd with hd | hd
  · rw [List.eq_of_mem_replicate hd]
    exact hc
  · exact hrun d hd

/-- Only ASCII zeros are dropped. -/
theorem dropZeros_replicate {c : Char} (n : Nat) (hc : c ≠ '0') (run : List Char) :
    dropZeros (List.replicate (n + 1) c ++ run) = List.replicate (n + 1) c ++ run := by
  simp [dropZeros, List.replicate_succ, hc]

/-- Zeros of any script in front do not change the number. -/
theorem runNumber_replicate {c : Char} (n : Nat) (hc : digitValue? c = some 0) (run : List Char) :
    runNumber (List.replicate n c ++ run) = runNumber run := by
  induction n with
  | zero => rfl
  | succ n ih =>
    rw [List.replicate_succ, List.cons_append, runNumber, List.filterMap_cons_some hc,
      Nat.ofDigits_reverse_zero_cons]
    exact ih

/-! ## Texts that begin with a number -/

/-- A sign that may stand before digits, and whether it is a minus. -/
inductive IsSign : List Char → Bool → Prop where
  | minus : IsSign ['-'] true
  | plus : IsSign ['+'] false
  | none : IsSign [] false

/-- A text begins with white space, at most one sign, and a run of digits that no digit follows. -/
inductive Begins : List Char → Bool → List Char → Prop where
  | intro {blanks sign run rest : List Char} {negative : Bool}
    (hblanks : ∀ c ∈ blanks, isBlank c = true) (hsign : IsSign sign negative)
    (hne : run ≠ []) (hrun : Digits run) (hrest : NoDigitHead rest) :
    Begins (blanks ++ (sign ++ (run ++ rest))) negative run

theorem Begins.digits {cs : List Char} {negative : Bool} (h : Begins cs negative run) :
    Digits run := by
  cases h
  assumption

/-- A sign is split off, and no digit is taken for one. -/
theorem splitSign_trimStart {sign : List Char} {negative : Bool} (hsign : IsSign sign negative)
    (hne : run ≠ []) (hrun : Digits run) (rest : List Char) :
    splitSign (trimStart (sign ++ (run ++ rest))) = (negative, run ++ rest) := by
  cases hsign with
  | minus => exact congrArg splitSign (trimStart_eq_self (by decide))
  | plus => exact congrArg splitSign (trimStart_eq_self (by decide))
  | none =>
    obtain ⟨c, more, rfl⟩ := List.exists_cons_of_ne_nil hne
    have hc := hrun c (List.mem_cons_self ..)
    have hminus : c ≠ '-' := by
      rintro rfl
      exact absurd hc (by decide)
    have hplus : c ≠ '+' := by
      rintro rfl
      exact absurd hc (by decide)
    rw [List.nil_append, List.cons_append, trimStart_eq_self (isBlank_of_digit hc)]
    simp [splitSign, hminus, hplus]

theorem leadingExtent?_of_begins {cs : List Char} {negative : Bool} (h : Begins cs negative run) :
    leadingExtent? cs = some (if digitLimit < (dropZeros run).length then .beyond negative
      else .number (withSign negative (runNumber run))) := by
  obtain ⟨hblanks, hsign, hne, hrun, hrest⟩ := h
  have hsome : ¬(run.filterMap digitValue?).isEmpty = true := by
    rw [List.isEmpty_iff_length_eq_zero, length_filterMap_digits hrun, List.length_eq_zero_iff]
    exact hne
  unfold leadingExtent?
  rw [trimStart_append hblanks, splitSign_trimStart hsign hne hrun]
  simp only [leadingDigits_append hrun hrest, if_neg hsome, extentOf_append _ hrun hrest]

/-! ### Every other text -/

theorem exists_sign (cs : List Char) :
    ∃ sign, IsSign sign (splitSign cs).1 ∧ cs = sign ++ (splitSign cs).2 := by
  unfold splitSign
  split
  · exact ⟨['-'], .minus, rfl⟩
  · exact ⟨['+'], .plus, rfl⟩
  · exact ⟨[], .none, rfl⟩

theorem exists_run {body : List Char} (h : leadingDigits body ≠ []) :
    ∃ run rest, body = run ++ rest ∧ run ≠ [] ∧ Digits run ∧ NoDigitHead rest := by
  induction body with
  | nil => exact absurd rfl h
  | cons c more ih =>
    cases hc : digitValue? c with
    | none => exact absurd (by simp [leadingDigits, hc]) h
    | some d =>
      have hdigit : (digitValue? c).isSome = true := by rw [hc, Option.isSome_some]
      by_cases hmore : leadingDigits more = []
      · refine ⟨[c], more, rfl, List.cons_ne_nil _ _, by simpa [Digits] using hdigit, ?_⟩
        rintro e rest rfl
        by_contra hsome
        obtain ⟨v, hv⟩ := Option.ne_none_iff_exists'.1 hsome
        simp [leadingDigits, hv] at hmore
      · obtain ⟨run, rest, rfl, -, hrun, hrest⟩ := ih hmore
        refine ⟨c :: run, rest, rfl, List.cons_ne_nil _ _, ?_, hrest⟩
        exact List.forall_mem_cons.2 ⟨hdigit, hrun⟩

/-- Where digits are found behind white space and a sign, the text begins with a number. -/
theorem exists_begins {cs : List Char} (h : leadingDigits (splitSign (trimStart cs)).2 ≠ []) :
    ∃ negative run, Begins cs negative run := by
  obtain ⟨sign, hsign, htrim⟩ := exists_sign (trimStart cs)
  obtain ⟨run, rest, hbody, hne, hrun, hrest⟩ := exists_run h
  have hblanks : ∀ c ∈ cs.takeWhile isBlank, isBlank c = true := by
    intro c hc
    exact List.mem_takeWhile_imp hc
  have hcs : cs = cs.takeWhile isBlank ++ (sign ++ (run ++ rest)) := by
    rw [← hbody, ← htrim]
    exact List.takeWhile_append_dropWhile.symm
  have hbegins := Begins.intro hblanks hsign hne hrun hrest
  rw [← hcs] at hbegins
  exact ⟨_, run, hbegins⟩

theorem leadingExtent?_eq_none_iff {cs : List Char} :
    leadingExtent? cs = none ↔ ¬∃ negative run, Begins cs negative run := by
  constructor
  · rintro hnone ⟨negative, run, h⟩
    rw [leadingExtent?_of_begins h] at hnone
    cases hnone
  · intro h
    have hdigits : leadingDigits (splitSign (trimStart cs)).2 = [] := by
      by_contra hne
      exact h (exists_begins hne)
    simp [leadingExtent?, hdigits]

/-! ## Runs that look too long -/

/-- More digits are left behind the ASCII zeros than are converted, but the number has no more. -/
def LooksTooLong (run : List Char) : Prop :=
  digitLimit < (dropZeros run).length ∧ runNumber run < 10 ^ digitLimit

/-- The number of a run that begins with a digit other than zero. -/
theorem pow_le_runNumber {c : Char} {d : Nat} (hc : digitValue? c = some (d + 1))
    (hrun : Digits run) : 10 ^ run.length ≤ runNumber (c :: run) := by
  rw [runNumber, List.filterMap_cons_some hc, Nat.ofDigits_reverse_cons,
    length_filterMap_digits hrun, Nat.mul_succ]
  omega

theorem ne_zero_of_dropZeros {c : Char} {more : List Char} (h : dropZeros run = c :: more) :
    c ≠ '0' := by
  have hhead := List.head?_dropWhile_not (· == '0') run
  rw [show run.dropWhile (· == '0') = c :: more from h] at hhead
  simpa using hhead

theorem lt_pow_digitLimit {n : Nat} (h : n < 10 ^ 3) : n < 10 ^ digitLimit :=
  Nat.lt_of_lt_of_le h (Nat.pow_le_pow_right (by decide) (by decide))

/-- Only a zero of another script can make a run look too long. -/
theorem exists_zero_of_looksTooLong (hrun : Digits run) (h : LooksTooLong run) :
    ∃ c more, dropZeros run = c :: more ∧ c ≠ '0' ∧ digitValue? c = some 0 := by
  obtain ⟨hlong, hsmall⟩ := h
  have hdigits := digits_dropZeros hrun
  rw [← runNumber_dropZeros] at hsmall
  cases hdrop : dropZeros run with
  | nil =>
    rw [hdrop] at hlong
    exact absurd hlong (by decide)
  | cons c more =>
    rw [hdrop] at hlong hsmall hdigits
    obtain ⟨hc, hmore⟩ := List.forall_mem_cons.1 hdigits
    refine ⟨c, more, rfl, ne_zero_of_dropZeros hdrop, ?_⟩
    obtain ⟨d, hd⟩ := Option.isSome_iff_exists.1 hc
    cases d with
    | zero => exact hd
    | succ d =>
      have hpow : 10 ^ digitLimit ≤ 10 ^ more.length :=
        Nat.pow_le_pow_right (by decide) (Nat.le_of_lt_succ hlong)
      have hnumber := pow_le_runNumber hd hmore
      omega

/-- A run that does not look too long is clamped as its number. -/
theorem clamp_extent {limits : Limits} (hle : limits.minimum ≤ limits.maximum)
    (hmin : limits.minimum.natAbs < 10 ^ digitLimit)
    (hmax : limits.maximum.natAbs < 10 ^ digitLimit)
    {negative : Bool} (h : ¬LooksTooLong run) :
    limits.clamp (if digitLimit < (dropZeros run).length then .beyond negative
      else .number (withSign negative (runNumber run))) =
      max limits.minimum (min limits.maximum (withSign negative (runNumber run))) := by
  by_cases hlong : digitLimit < (dropZeros run).length
  · have hlarge : 10 ^ digitLimit ≤ runNumber run := by
      by_contra hsmall
      exact h ⟨hlong, Nat.lt_of_not_le hsmall⟩
    generalize 10 ^ digitLimit = bound at hmin hmax hlarge
    rw [if_pos hlong]
    cases negative with
    | true =>
      show limits.minimum = max limits.minimum (min limits.maximum (-(runNumber run : Int)))
      omega
    | false =>
      show max limits.minimum limits.maximum =
        max limits.minimum (min limits.maximum (runNumber run : Int))
      omega
  · rw [if_neg hlong]
    rfl

/-! ## Numbers as they are written -/

theorem isDigit_of_mem_natChars {n : Nat} {c : Char} (h : c ∈ natChars n) : c.isDigit = true :=
  Nat.isDigit_of_mem_toDigits (by decide) (by decide) h

theorem digits_natChars (n : Nat) : Digits (natChars n) := by
  intro c hc
  rw [digitValue?_of_isDigit (isDigit_of_mem_natChars hc)]
  rfl

theorem runNumber_natChars (n : Nat) : runNumber (natChars n) = n := by
  have hvalues : (natChars n).filterMap digitValue? =
      (natChars n).map fun c => c.toNat - '0'.toNat := by
    rw [← List.filterMap_eq_map']
    exact List.filterMap_congr fun c hc => digitValue?_of_isDigit (isDigit_of_mem_natChars hc)
  calc runNumber (natChars n) = ofDigits ((natChars n).map fun c => c.toNat - '0'.toNat) := by
        rw [ofDigits_eq, runNumber, hvalues]
    _ = Nat.ofDigitChars 10 (Nat.toDigits 10 n) 0 := List.foldl_map
    _ = n := Nat.ofDigitChars_toDigits (by decide) (by decide)

/-- No number that is written without zeros of other scripts looks too long. -/
theorem not_looksTooLong_natChars (n : Nat) : ¬LooksTooLong (natChars n) := by
  intro h
  obtain ⟨c, more, hdrop, hne, hzero⟩ := exists_zero_of_looksTooLong (digits_natChars n) h
  have hmem : c ∈ natChars n := by
    refine (List.dropWhile_suffix (· == '0')).subset ?_
    rw [show (natChars n).dropWhile (· == '0') = c :: more from hdrop]
    exact List.mem_cons_self
  have hdigit := isDigit_of_mem_natChars hmem
  rw [digitValue?_of_isDigit hdigit, Option.some.injEq] at hzero
  have hlow : '0'.toNat ≤ c.toNat := (Char.isDigit_iff_toNat.1 hdigit).1
  exact hne (Char.toNat_inj.1 (by omega))

theorem begins_intChars (n : Int) :
    ∃ negative, Begins (intChars n) negative (natChars n.natAbs) ∧
      withSign negative (runNumber (natChars n.natAbs)) = n := by
  have hdigits := digits_natChars n.natAbs
  have hend : NoDigitHead [] := nofun
  have hblanks : ∀ c ∈ [], isBlank c = true := nofun
  cases n with
  | ofNat m =>
    have h := Begins.intro hblanks .none Nat.toDigits_ne_nil hdigits hend
    refine ⟨false, ?_, ?_⟩
    · simpa [intChars, natChars] using h
    rw [runNumber_natChars]
    rfl
  | negSucc m =>
    have h := Begins.intro hblanks .minus Nat.toDigits_ne_nil hdigits hend
    refine ⟨true, ?_, ?_⟩
    · simpa [intChars, natChars] using h
    rw [runNumber_natChars]
    rfl

/-! ## Distances -/

section Reading

variable {limits : Limits} {fallback? : Option Int}

theorem distance_of_begins {s : String} {negative : Bool} (h : Begins s.toList negative run) :
    limits.distance fallback? (.text s) =
      limits.clamp (if digitLimit < (dropZeros run).length then .beyond negative
        else .number (withSign negative (runNumber run))) := by
  have hextent : extent? (.text s) = _ := leadingExtent?_of_begins h
  rw [Limits.distance, Limits.read, hextent, Option.getD_some]

theorem distance_of_extent?_eq_none {v : Value} (h : extent? v = none) :
    limits.distance fallback? v =
      max limits.minimum (min limits.maximum (fallback?.getD limits.proximity)) := by
  rw [Limits.distance, Limits.read, h]
  rfl

/-- No option has a name that begins with a number. -/
theorem extent?_choice (c : Choice) : extent? (.choice c) = none := by
  obtain a | m | t | k := c
  · cases a <;> decide
  · cases m <;> decide
  · cases t <;> decide
  · cases k <;> decide

end Reading

end Distance

open Distance

/-- **A text is read as the number that it begins with.**  Between bounds of at most 4300 digits, a
text that begins with white space, at most one sign and a run of decimal digits of any script and
any length gives the number of that run, kept within the bounds, unless the run looks too long; then
it gives the bound on the side of its sign.  To look too long a run must have a zero of another
script behind its ASCII zeros, so a number and its decimal text always give the same.  Every other
text, and every option, gives the given fallback, or else the distance of proximity searches, kept
within the bounds.  Every result lies within them. -/
theorem text_is_read_as_number (limits : Limits) (fallback? : Option Int)
    (hle : limits.minimum ≤ limits.maximum)
    (hmin : limits.minimum.natAbs < 10 ^ digitLimit)
    (hmax : limits.maximum.natAbs < 10 ^ digitLimit) :
    let read := limits.distance fallback?
    let within (n : Int) := max limits.minimum (min limits.maximum n)
    (∀ s negative run, Begins s.toList negative run →
      (¬LooksTooLong run → read (.text s) = within (withSign negative (runNumber run))) ∧
      (LooksTooLong run →
        read (.text s) = (if negative then limits.minimum else limits.maximum) ∧
        ∃ c more, dropZeros run = c :: more ∧ c ≠ '0' ∧ digitValue? c = some 0)) ∧
    (∀ n, read (.text (intText n)) = read (.int n) ∧ read (.int n) = within n) ∧
    (∀ s, (¬∃ negative run, Begins s.toList negative run) →
      read (.text s) = within (fallback?.getD limits.proximity)) ∧
    (∀ c, read (.choice c) = within (fallback?.getD limits.proximity)) ∧
    ∀ v, limits.minimum ≤ read v ∧ read v ≤ limits.maximum := by
  intro read within
  have hnumber : ∀ s negative run, Begins s.toList negative run → ¬LooksTooLong run →
      read (.text s) = within (withSign negative (runNumber run)) := by
    intro s negative run h hshort
    exact (distance_of_begins h).trans (clamp_extent hle hmin hmax hshort)
  refine ⟨?_, ?_, ?_, ?_, ?_⟩
  · intro s negative run h
    refine ⟨hnumber s negative run h, fun hlong => ⟨?_, ?_⟩⟩
    · have hread : read (.text s) = _ := distance_of_begins h
      rw [hread, if_pos hlong.1]
      cases negative with
      | true => rfl
      | false => exact max_eq_right hle
    · exact exists_zero_of_looksTooLong h.digits hlong
  · intro n
    obtain ⟨negative, hbegins, hvalue⟩ := begins_intChars n
    have htext : Begins (intText n).toList negative (natChars n.natAbs) := by
      rw [intText, String.toList_ofList]
      exact hbegins
    have hread := hnumber _ negative _ htext (not_looksTooLong_natChars _)
    rw [hvalue] at hread
    exact ⟨hread, rfl⟩
  · intro s h
    exact distance_of_extent?_eq_none (leadingExtent?_eq_none_iff.2 h)
  · intro c
    exact distance_of_extent?_eq_none (extent?_choice c)
  · intro v
    exact ⟨minimum_le_clamp limits _, clamp_le_maximum hle _⟩

/-- Behind wide white space, a minus and five thousand zeros, two digits of another script are read
as forty-two; the decimal text of a number, and a text without a number, give what they should. -/
theorem padded_number_is_read :
    let limits : Limits := { minimum := -50, maximum := 50 }
    let run := List.replicate 5000 '0' ++ ['٤', '٢']
    let typed := String.ofList (['\u3000'] ++ (['-'] ++ (run ++ " tokens".toList)))
    limits.minimum ≤ limits.maximum ∧ limits.minimum.natAbs < 10 ^ digitLimit ∧
    limits.maximum.natAbs < 10 ^ digitLimit ∧ Begins typed.toList true run ∧ ¬LooksTooLong run ∧
    limits.distance none (.text typed) = -42 ∧
    limits.distance none (.text (intText (-7))) = limits.distance none (.int (-7)) ∧
    limits.distance (some 60) (.text "far") = 50 := by
  intro limits run typed
  have hdrop : dropZeros run = ['٤', '٢'] :=
    List.dropWhile_append_of_pos fun c hc => by rw [List.eq_of_mem_replicate hc]; decide
  have hnumber : runNumber run = 42 := by
    rw [← runNumber_dropZeros, hdrop]
    decide
  have hshort : ¬LooksTooLong run := by
    rintro ⟨hlong, -⟩
    rw [hdrop] at hlong
    exact absurd hlong (by decide)
  have hbound : 50 < 10 ^ digitLimit := lt_pow_digitLimit (by decide)
  have hlast : Digits ['٤', '٢'] :=
    List.forall_mem_cons.2 ⟨by decide, List.forall_mem_singleton.2 (by decide)⟩
  have hrun : Digits run := digits_replicate 5000 (by decide) hlast
  have hbegins : Begins typed.toList true run := by
    rw [String.toList_ofList]
    refine .intro (List.forall_mem_singleton.2 (by decide)) .minus
      (List.append_ne_nil_of_right_ne_nil _ (by decide)) hrun ?_
    rintro c more h
    obtain rfl : ' ' = c := (List.cons.inj h).1
    decide
  obtain ⟨htext, hwritten, -, -, -⟩ := text_is_read_as_number limits none (by decide) hbound hbound
  obtain ⟨-, -, hother, -, -⟩ := text_is_read_as_number limits (some 60) (by decide) hbound hbound
  have hread := (htext typed true run hbegins).1 hshort
  rw [hnumber] at hread
  have hfar := hother "far" (leadingExtent?_eq_none_iff.1 (by decide))
  exact ⟨by decide, hbound, hbound, hbegins, hshort, hread, (hwritten (-7)).1, hfar⟩

/-- Four thousand three hundred zeros of another script and a seven begin a text with the number
seven, which is within the bounds, and yet the text gives the upper bound. -/
theorem zeros_of_other_script_look_too_long :
    let limits : Limits := {}
    let run := List.replicate 4300 '٠' ++ ['7']
    let typed := String.ofList run
    limits.minimum ≤ limits.maximum ∧ limits.minimum.natAbs < 10 ^ digitLimit ∧
    limits.maximum.natAbs < 10 ^ digitLimit ∧ Begins typed.toList false run ∧
    withSign false (runNumber run) = 7 ∧ limits.distance none (.text typed) = 100 ∧
    limits.distance none (.text typed) ≠
      max limits.minimum (min limits.maximum (withSign false (runNumber run))) := by
  intro limits run typed
  have hbound : 100 < 10 ^ digitLimit := lt_pow_digitLimit (by decide)
  have hnumber : runNumber run = 7 :=
    (runNumber_replicate 4300 (by decide) ['7']).trans (by decide)
  have hlong : digitLimit < (dropZeros run).length := by
    have hdrop : dropZeros run = run := dropZeros_replicate 4299 (by decide) ['7']
    rw [hdrop, List.length_append, List.length_replicate]
    decide
  have hlast : Digits ['7'] := List.forall_mem_singleton.2 (by decide)
  have hrun : Digits run := digits_replicate 4300 (by decide) hlast
  have hbegins : Begins typed.toList false run := by
    have hblanks : ∀ c ∈ [], isBlank c = true := nofun
    have hend : NoDigitHead [] := nofun
    have h :=
      Begins.intro hblanks .none (List.append_ne_nil_of_right_ne_nil _ (by decide)) hrun hend
    rw [List.append_nil] at h
    rw [String.toList_ofList]
    exact h
  have hread : limits.distance none (.text typed) = 100 := by
    rw [distance_of_begins hbegins, if_pos hlong]
    rfl
  refine ⟨by decide, Nat.lt_trans (by decide) hbound, hbound, hbegins, ?_, hread, ?_⟩
  · rw [hnumber]
    rfl
  · rw [hread, hnumber]
    decide

end Concordance
