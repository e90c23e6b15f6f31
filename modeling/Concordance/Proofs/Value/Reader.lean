import Concordance.Proofs.Cql.Reader
import Concordance.Proofs.Link
import Concordance.Proofs.Value.Mapping

/-!
# Reading JSON

A reader of JSON texts whose numbers are whole: with blanks between the parts, with every escape
inside strings, and with the entries of an object in the order in which they stand.

* `readValue`, `read?` — the value at the start of a text, and the value that a text says.
* `Takes` — a reader takes a text as something, as long as what follows does not extend it.
* `escapeJson_cases`, `readChar_escapeJson` — the forms of a character inside a string, from each of
  which it is read back.
* `takes_jsonString`, `readInt_intChars` — so are strings and whole numbers.
* `readEnclosed_commaSeparated` — what stands between commas is read part by part.
-/

namespace Concordance.Payload

open Concordance.Cql (Reader readRun)
open Concordance.Decimal Concordance.Text Concordance.Value

variable {α : Type}

/-! ## Readers -/

/-- The blanks of JSON. -/
def isSpace (c : Char) : Bool :=
  c == ' ' || c == '\t' || c == '\n' || c == '\r'

/-- The text without the blanks at its start. -/
def skip (cs : List Char) : List Char :=
  cs.dropWhile isSpace

/-- The number of four hexadecimal digits. -/
def readUnit : Reader Nat
  | a :: b :: c :: d :: rest => do
    let w ← Link.hexValue? a
    let x ← Link.hexValue? b
    let y ← Link.hexValue? c
    let z ← Link.hexValue? d
    return (((w * 16 + x) * 16 + y) * 16 + z, rest)
  | _ => none

/-- The character that one letter stands for behind a backslash. -/
def shortEscape? (c : Char) : Option Char :=
  [('"', '"'), ('\\', '\\'), ('/', '/'), ('b', '\x08'), ('f', '\x0c'), ('n', '\n'), ('r', '\r'),
    ('t', '\t')].lookup c

/-- Reads what stands behind a backslash; of two surrogates the high one comes first. -/
def readEscape : Reader Char
  | [] => none
  | 'u' :: rest => do
    let (unit, rest) ← readUnit rest
    if unit < 0xD800 ∨ 0xE000 ≤ unit then return (Char.ofNat unit, rest)
    else if unit < 0xDC00 then do
      let rest ← rest.dropPrefix? ['\\', 'u']
      let (low, rest) ← readUnit rest
      if 0xDC00 ≤ low ∧ low < 0xE000 then
        return (Char.ofNat (0x10000 + 0x400 * (unit - 0xD800) + (low - 0xDC00)), rest)
      else none
    else none
  | c :: rest => (shortEscape? c).map fun d => (d, rest)

/-- Reads one character inside a string. -/
def readChar : Reader Char
  | [] => none
  | '\\' :: rest => readEscape rest
  | c :: rest => if c = '"' ∨ c.toNat < 0x20 then none else some (c, rest)

/-- Reads fewer than `fuel` characters and the quote behind them. -/
def readChars : Nat → Reader (List Char)
  | 0, _ => none
  | _ + 1, '"' :: rest => some ([], rest)
  | fuel + 1, cs => do
    let (c, rest) ← readChar cs
    let (more, rest) ← readChars fuel rest
    return (c :: more, rest)

/-- Reads a string. -/
def readString : Reader String := fun cs => do
  let rest ← cs.dropPrefix? ['"']
  let (chars, rest) ← readChars rest.length rest
  return (String.ofList chars, rest)

/-- A fraction or an exponent begins. -/
def isFractional (c : Char) : Bool :=
  c == '.' || c == 'e' || c == 'E'

/-- Reads the digits of a whole number: a zero or what does not begin with one, no more than are
read, and without a fraction or an exponent. -/
def readDigits : Reader Nat := fun cs => do
  let (digits, rest) ← readRun Char.isDigit cs
  if (digits.head? = some '0' ∧ digits.length ≠ 1) ∨ digitLimit < digits.length ∨
      rest.head?.any isFractional then none
  else return (Nat.ofDigitChars 10 digits 0, rest)

/-- Reads a whole number. -/
def readInt : Reader Int
  | '-' :: rest => (readDigits rest).map fun p => (-(p.1 : Int), p.2)
  | cs => (readDigits cs).map fun p => ((p.1 : Int), p.2)

/-- Reads at least one part and at most `fuel`, with commas between them and the mark at the end. -/
def readMembers (close : Char) (reader : Reader α) : Nat → Reader (List α)
  | 0, _ => none
  | fuel + 1, cs => do
    let (x, rest) ← reader (skip cs)
    match skip rest with
    | [] => none
    | c :: rest =>
      if c = close then return ([x], rest)
      else if c = ',' then do
        let (xs, rest) ← readMembers close reader fuel rest
        return (x :: xs, rest)
      else none

/-- Reads any number of parts with commas between them, and the mark at the end. -/
def readEnclosed (close : Char) (reader : Reader α) : Reader (List α) := fun cs =>
  match (skip cs).dropPrefix? [close] with
  | some rest => some ([], rest)
  | none => readMembers close reader cs.length cs

/-- Reads a key and what stands under it. -/
def readEntry (reader : Reader α) : Reader (String × α) := fun cs => do
  let (key, rest) ← readString cs
  let rest ← (skip rest).dropPrefix? [':']
  let (a, rest) ← reader (skip rest)
  return ((key, a), rest)

/-- Reads a value of at most the given depth. -/
def readValue : Nat → Reader Value
  | 0, _ => none
  | _ + 1, [] => none
  | _ + 1, 'n' :: 'u' :: 'l' :: 'l' :: rest => some (.null, rest)
  | _ + 1, 't' :: 'r' :: 'u' :: 'e' :: rest => some (.bool true, rest)
  | _ + 1, 'f' :: 'a' :: 'l' :: 's' :: 'e' :: rest => some (.bool false, rest)
  | depth + 1, c :: rest =>
    if c = '"' then (readString (c :: rest)).map fun p => (.text p.1, p.2)
    else if c = '[' then
      (readEnclosed ']' (readValue depth) rest).map fun p => (.list p.1, p.2)
    else if c = '\x7b' then
      (readEnclosed '\x7d' (readEntry (readValue depth)) rest).map fun p =>
        (.record (textKeyed p.1), p.2)
    else (readInt (c :: rest)).map fun p => (.int p.1, p.2)

/-- The value that a text says, with blanks around it. -/
def read? (s : String) : Option Value :=
  match readValue s.length (skip s.toList) with
  | some (v, rest) => if skip rest = [] then some v else none
  | none => none

example : (read? " [\"a\\/\\ud83d\\uDE00\", -10,\x7b \x7d ]").map literal =
    some "['a/😀', -10, \x7b\x7d]" := by
  decide +kernel

/-! ## Strings -/

theorem hexValue?_hexDigit : ∀ n < 16, Link.hexValue? (hexDigit n) = some n := by
  decide

theorem readUnit_hexDigits {n : Nat} (h : n < 0x10000) (rest : List Char) :
    readUnit (hexDigits 4 n ++ rest) = some (n, rest) := by
  have hdigit (k : Nat) : Link.hexValue? (hexDigit (k % 16)) = some (k % 16) :=
    hexValue?_hexDigit _ (Nat.mod_lt _ (by decide))
  have hsum : ((n / 16 / 16 / 16 % 16 * 16 + n / 16 / 16 % 16) * 16 + n / 16 % 16) * 16 + n % 16 =
      n := by omega
  simp [hexDigits, readUnit, hdigit, hsum]

/-- A code point is no surrogate. -/
theorem toNat_lt_or_le (c : Char) : c.toNat < 0xD800 ∨ 0xE000 ≤ c.toNat ∧ c.toNat < 0x110000 := by
  have hvalid : c.toNat < 0xD800 ∨ 0xDFFF < c.toNat ∧ c.toNat < 0x110000 := c.valid
  omega

theorem readChar_escapeUnit {n : Nat} (h : n < 0x10000) (hunit : n < 0xD800 ∨ 0xE000 ≤ n)
    (rest : List Char) :
    readChar (escapeUnit n ++ rest) = some (Char.ofNat n, rest) := by
  show readEscape ('u' :: (hexDigits 4 n ++ rest)) = _
  simp [readEscape, readUnit_hexDigits h, hunit]

theorem readChar_surrogates {n : Nat} (h : n < 0x100000) (rest : List Char) :
    readChar (escapeUnit (0xD800 + n / 0x400) ++ escapeUnit (0xDC00 + n % 0x400) ++ rest) =
      some (Char.ofNat (0x10000 + n), rest) := by
  have hhigh : ¬ (0xD800 + n / 0x400 < 0xD800 ∨ 0xE000 ≤ 0xD800 + n / 0x400) := by omega
  have hlow : 0xD800 + n / 0x400 < 0xDC00 := by omega
  have hpair : 0xDC00 ≤ 0xDC00 + n % 0x400 ∧ 0xDC00 + n % 0x400 < 0xE000 := by omega
  have hsum : 0x10000 + 0x400 * (0xD800 + n / 0x400 - 0xD800) + (0xDC00 + n % 0x400 - 0xDC00) =
      0x10000 + n := by omega
  rw [List.append_assoc]
  show readEscape ('u' :: (hexDigits 4 (0xD800 + n / 0x400) ++
    (['\\', 'u'] ++ (hexDigits 4 (0xDC00 + n % 0x400) ++ rest)))) = _
  have hfirst := readUnit_hexDigits (n := 0xD800 + n / 0x400) (by omega)
    (['\\', 'u'] ++ (hexDigits 4 (0xDC00 + n % 0x400) ++ rest))
  have hsecond := readUnit_hexDigits (n := 0xDC00 + n % 0x400) (by omega) rest
  simp only [readEscape, hfirst, bind, Option.bind_some, if_neg hhigh, if_pos hlow,
    Cql.dropPrefix?_append, hsecond, if_pos hpair, hsum]
  rfl

/-- The forms of a character inside a string: a letter behind a backslash, the character itself, or
its code as one UTF-16 unit or as two. -/
theorem escapeJson_cases (c : Char) :
    (∃ d ∈ ['"', '\\', 'n', 'r', 't', 'b', 'f'], escapeJson c = ['\\', d] ∧
      shortEscape? d = some c) ∨
    (escapeJson c = [c] ∧ c ≠ '"' ∧ c ≠ '\\' ∧ 0x20 ≤ c.toNat ∧ c.toNat < 0x7F) ∨
    (escapeJson c = escapeUnit c.toNat ∧ c.toNat < 0x10000) ∨
    (escapeJson c = escapeUnit (0xD800 + (c.toNat - 0x10000) / 0x400) ++
      escapeUnit (0xDC00 + (c.toNat - 0x10000) % 0x400) ∧ 0x10000 ≤ c.toNat) := by
  unfold escapeJson
  iterate 7
    split
    · subst_vars
      exact .inl ⟨_, by decide, rfl, rfl⟩
  split
  · rename_i hquote hbackslash _ _ _ _ _ hshown
    exact .inr (.inl ⟨rfl, hquote, hbackslash, hshown⟩)
  split
  · rename_i hsmall
    exact .inr (.inr (.inl ⟨rfl, hsmall⟩))
  · rename_i hlarge
    exact .inr (.inr (.inr ⟨rfl, Nat.le_of_not_lt hlarge⟩))

/-- Every character is read back from its form inside a string. -/
theorem readChar_escapeJson (c : Char) (rest : List Char) :
    readChar (escapeJson c ++ rest) = some (c, rest) := by
  rcases escapeJson_cases c with ⟨d, hd, hform, hshort⟩ | ⟨hform, hquote, hbackslash, hlow, -⟩ |
    ⟨hform, hsmall⟩ | ⟨hform, hlarge⟩
  · have hletter : d ≠ 'u' := by
      rintro rfl
      simp at hd
    rw [hform]
    show readEscape (d :: rest) = _
    rw [readEscape, hshort]
    · rfl
    · exact hletter
  · have hstop : ¬ (c = '"' ∨ c.toNat < 0x20) := by
      rintro (hc | hc)
      · exact hquote hc
      · omega
    rw [hform]
    show readChar (c :: rest) = _
    rw [readChar, if_neg hstop]
    exact hbackslash
  · rw [hform, readChar_escapeUnit hsmall ((toNat_lt_or_le c).imp id And.left), Char.ofNat_toNat]
  · have hcode : 0x10000 + (c.toNat - 0x10000) = c.toNat := by omega
    have hbound := toNat_lt_or_le c
    rw [hform, readChar_surrogates (by omega), hcode, Char.ofNat_toNat]

theorem escapeJson_ne_nil (c : Char) : escapeJson c ≠ [] := by
  intro h
  have hread := readChar_escapeJson c []
  rw [h] at hread
  cases hread

theorem length_le_escaped (cs : List Char) : cs.length ≤ (cs.flatMap escapeJson).length := by
  induction cs with
  | nil => exact Nat.le_refl 0
  | cons c cs ih =>
    have hchar := List.length_pos_of_ne_nil (escapeJson_ne_nil c)
    rw [List.flatMap_cons, List.length_append, List.length_cons]
    omega

theorem readChars_escaped (cs rest : List Char) {fuel : Nat} (h : cs.length < fuel) :
    readChars fuel (cs.flatMap escapeJson ++ '"' :: rest) = some (cs, rest) := by
  induction cs generalizing fuel with
  | nil =>
    obtain ⟨fuel, rfl⟩ := Nat.exists_eq_add_one_of_ne_zero (Nat.ne_of_gt h)
    rfl
  | cons c cs ih =>
    obtain ⟨fuel, rfl⟩ := Nat.exists_eq_add_one_of_ne_zero (Nat.ne_of_gt (Nat.zero_lt_of_lt h))
    have hchar := readChar_escapeJson c (cs.flatMap escapeJson ++ '"' :: rest)
    have hmore := ih (Nat.lt_of_succ_lt_succ h)
    rw [List.flatMap_cons, List.append_assoc, readChars]
    · simp only [hchar, bind, Option.bind_some, hmore]
      rfl
    · -- a form of a character does not begin with the quote that ends a string
      intro more hquote
      rw [hquote] at hchar
      cases hchar

/-! ## Readers that take a text -/

/-- What follows extends no value. -/
def Ends (rest : List Char) : Prop :=
  ∀ c more, rest = c :: more → c.isDigit = false ∧ isFractional c = false

/-- A blank, or the mark behind the parts of a list or a record. -/
def isBetween (c : Char) : Bool :=
  isSpace c || c == ']' || c == '\x7d'

/-- The reader takes the text as something, whatever follows it that does not extend it; the text
begins neither with a blank nor with a mark behind parts. -/
structure Takes (reader : Reader α) (text : List Char) (a : α) : Prop where
  starts : ∃ c more, text = c :: more ∧ isBetween c = false
  read_eq : ∀ rest, Ends rest → reader (text ++ rest) = some (a, rest)

theorem isSpace_of_isBetween {c : Char} (h : isBetween c = false) : isSpace c = false := by
  simp only [isBetween, Bool.or_eq_false_iff] at h
  exact h.1.1

theorem skip_cons {c : Char} (h : isSpace c = false) (cs : List Char) :
    skip (c :: cs) = c :: cs := by
  simp [skip, h]

theorem skip_blank (cs : List Char) : skip (' ' :: cs) = skip cs :=
  rfl

namespace Takes

variable {reader : Reader α} {text : List Char} {a : α}

theorem skip_append (h : Takes reader text a) (rest : List Char) :
    skip (text ++ rest) = text ++ rest := by
  obtain ⟨c, more, rfl, hc⟩ := h.starts
  exact skip_cons (isSpace_of_isBetween hc) _

theorem dropPrefix?_append (h : Takes reader text a) {close : Char}
    (hclose : isBetween close = true) (rest : List Char) :
    (text ++ rest).dropPrefix? [close] = none := by
  obtain ⟨c, more, rfl, hc⟩ := h.starts
  refine Cql.dropPrefix?_ne ?_ _ _
  rintro rfl
  rw [hc] at hclose
  cases hclose

end Takes

theorem takes_jsonString (s : String) : Takes readString (jsonString s.toList) s where
  starts := ⟨'"', _, rfl, by decide⟩
  read_eq := by
    intro rest _
    have hlength := length_le_escaped s.toList
    have hquote := Cql.dropPrefix?_append ['"'] (s.toList.flatMap escapeJson ++ '"' :: rest)
    have hfuel : s.toList.length < (s.toList.flatMap escapeJson ++ '"' :: rest).length := by
      rw [List.length_append, List.length_cons]
      omega
    have hchars := readChars_escaped s.toList rest hfuel
    have htext : jsonString s.toList ++ rest =
        ['"'] ++ (s.toList.flatMap escapeJson ++ '"' :: rest) := by simp [jsonString]
    rw [htext]
    simp only [readString, hquote, bind, Option.bind_some, hchars, String.ofList_toList]
    rfl

/-! ## Whole numbers -/

/-- Only zero begins with a zero. -/
theorem head?_toDigits {n : Nat} (h : n ≠ 0) : (Nat.toDigits 10 n).head? ≠ some '0' := by
  induction n using Nat.strongRecOn with
  | _ n ih =>
    by_cases hn : n < 10
    · rw [Nat.toDigits_of_lt_base hn]
      simpa using h
    · have hdiv := ih (n / 10) (by omega) (by omega)
      rw [Nat.toDigits_of_base_le (by decide) (by omega), List.head?_append]
      cases hhead : (Nat.toDigits 10 (n / 10)).head? with
      | none => exact absurd (List.head?_eq_none_iff.1 hhead) Nat.toDigits_ne_nil
      | some c => rwa [hhead] at hdiv

theorem readDigits_natChars {n : Nat} (h : (natChars n).length ≤ digitLimit) {rest : List Char}
    (hrest : Ends rest) : readDigits (natChars n ++ rest) = some (n, rest) := by
  have hrun : readRun Char.isDigit (natChars n ++ rest) = some (natChars n, rest) := by
    refine (Cql.readRun_reads Char.isDigit).complete ⟨rfl, Nat.toDigits_ne_nil, fun c hc => ?_⟩ rest
      fun c more hmore => (hrest c more hmore).1
    exact Nat.isDigit_of_mem_toDigits (by decide) (by decide) hc
  have hzero : ¬ ((natChars n).head? = some '0' ∧ (natChars n).length ≠ 1) := by
    rintro ⟨hhead, hlength⟩
    have hn : n = 0 := by
      by_contra hn
      exact head?_toDigits hn hhead
    subst hn
    exact hlength rfl
  have hplain : rest.head?.any isFractional = false := by
    cases rest with
    | nil => rfl
    | cons c more => exact (hrest c more rfl).2
  have hgood : ¬ ((natChars n).head? = some '0' ∧ (natChars n).length ≠ 1 ∨
      digitLimit < (natChars n).length ∨ rest.head?.any isFractional = true) := by
    rintro (hbad | hbad | hbad)
    · exact hzero hbad
    · omega
    · rw [hplain] at hbad
      cases hbad
  simp only [readDigits, hrun, bind, Option.bind_some, if_neg hgood]
  exact congrArg (fun k => some (k, rest)) (Nat.ofDigitChars_toDigits (by decide) (by decide))

theorem exists_digit_natChars (n : Nat) :
    ∃ c more, natChars n = c :: more ∧ c.isDigit = true := by
  cases h : natChars n with
  | nil => exact absurd h Nat.toDigits_ne_nil
  | cons c more =>
    have hmem : c ∈ natChars n := by
      rw [h]
      exact List.mem_cons_self
    exact ⟨c, more, rfl, Nat.isDigit_of_mem_toDigits (by decide) (by decide) hmem⟩

theorem isBetween_of_isDigit {c : Char} (h : c.isDigit = true) : isBetween c = false := by
  rw [Bool.eq_false_iff]
  intro hbetween
  simp only [isBetween, isSpace, Bool.or_eq_true, beq_iff_eq] at hbetween
  rcases hbetween with ((((rfl | rfl) | rfl) | rfl) | rfl) | rfl <;> cases h

theorem takes_intChars {n : Int} (h : (natChars n.natAbs).length ≤ digitLimit) :
    Takes readInt (intChars n) n := by
  cases n with
  | ofNat n =>
    obtain ⟨c, more, hc, hdigit⟩ := exists_digit_natChars n
    refine ⟨⟨c, more, hc, isBetween_of_isDigit hdigit⟩, fun rest hrest => ?_⟩
    have hread : readDigits (natChars n ++ rest) = some (n, rest) := readDigits_natChars h hrest
    have hsign : ∀ cs, natChars n ++ rest ≠ '-' :: cs := by
      intro cs hcs
      rw [hc] at hcs
      cases hcs
      cases hdigit
    show readInt (natChars n ++ rest) = _
    rw [readInt, hread]
    · rfl
    · exact hsign
  | negSucc n =>
    refine ⟨⟨'-', _, rfl, by decide⟩, fun rest hrest => ?_⟩
    have hread : readDigits (natChars (n + 1) ++ rest) = some (n + 1, rest) :=
      readDigits_natChars h hrest
    show (readDigits (natChars (n + 1) ++ rest)).map _ = _
    rw [hread]
    rfl

/-! ## Parts between commas -/

theorem commaSeparated_cons (piece : List Char) (pieces : List (List Char)) :
    ∃ more, commaSeparated (piece :: pieces) = piece ++ more := by
  cases pieces with
  | nil => exact ⟨[], (List.append_nil _).symm⟩
  | cons q qs => exact ⟨[',', ' '] ++ commaSeparated (q :: qs), List.append_assoc ..⟩

theorem length_le_commaSeparated (pieces : List (List Char)) :
    pieces.length ≤ (commaSeparated pieces).length + 1 := by
  induction pieces with
  | nil => exact Nat.zero_le _
  | cons piece rest ih =>
    cases rest with
    | nil => simp
    | cons q qs =>
      simp only [commaSeparated, List.length_append, List.length_cons] at ih ⊢
      omega

section Parts

variable {reader : Reader α} {close : Char} (hclose : close = ']' ∨ close = '\x7d')

include hclose

theorem ends_close (rest : List Char) : Ends (close :: rest) := by
  rintro _ _ ⟨⟩
  rcases hclose with rfl | rfl <;> decide

theorem isBetween_close : isBetween close = true := by
  rcases hclose with rfl | rfl <;> rfl

theorem skip_close (rest : List Char) : skip (close :: rest) = close :: rest := by
  rcases hclose with rfl | rfl <;> rfl

theorem readMembers_commaSeparated {pieces : List (List Char)} {as : List α}
    (h : List.Forall₂ (Takes reader) pieces as) (hne : pieces ≠ []) {cs rest : List Char}
    (hcs : skip cs = commaSeparated pieces ++ close :: rest) {fuel : Nat}
    (hfuel : pieces.length ≤ fuel) : readMembers close reader fuel cs = some (as, rest) := by
  induction h generalizing cs fuel with
  | nil => exact absurd rfl hne
  | @cons piece a pieces as hpiece hpieces ih =>
    obtain ⟨fuel, rfl⟩ : ∃ k, fuel = k + 1 := ⟨fuel - 1, by simp at hfuel; omega⟩
    cases hpieces with
    | nil =>
      have hread := hpiece.read_eq _ (ends_close hclose rest)
      rw [readMembers, hcs]
      simp only [commaSeparated, hread, bind, Option.bind_some, skip_close hclose, if_true]
      rfl
    | @cons next b pieces bs hnext hmore =>
      have hcomma : ',' ≠ close := by rcases hclose with rfl | rfl <;> decide
      -- behind a part stands a comma, which ends it, and the blank that the next part skips
      have hread := hpiece.read_eq
        (',' :: ' ' :: (commaSeparated (next :: pieces) ++ close :: rest))
        (by rintro _ _ ⟨⟩; decide)
      have hskip : skip (' ' :: (commaSeparated (next :: pieces) ++ close :: rest)) =
          commaSeparated (next :: pieces) ++ close :: rest := by
        obtain ⟨more, hpieces⟩ := commaSeparated_cons next pieces
        rw [skip_blank, hpieces, List.append_assoc, hnext.skip_append]
      have hothers := ih (List.cons_ne_nil _ _) hskip (Nat.le_of_succ_le_succ hfuel)
      have htext : commaSeparated (piece :: next :: pieces) ++ close :: rest =
          piece ++ (',' :: ' ' :: (commaSeparated (next :: pieces) ++ close :: rest)) := by
        simp [commaSeparated]
      have hstop (more : List Char) : skip (',' :: more) = ',' :: more := rfl
      rw [readMembers, hcs, htext]
      simp only [hread, bind, Option.bind_some, hstop, if_neg hcomma, if_true, hothers]
      rfl

/-- What stands between commas is read part by part. -/
theorem readEnclosed_commaSeparated {pieces : List (List Char)} {as : List α}
    (h : List.Forall₂ (Takes reader) pieces as) (rest : List Char) :
    readEnclosed close reader (commaSeparated pieces ++ close :: rest) = some (as, rest) := by
  cases h with
  | nil =>
    have hprefix : (close :: rest).dropPrefix? [close] = some rest :=
      Cql.dropPrefix?_append [close] rest
    show readEnclosed close reader (close :: rest) = _
    rw [readEnclosed, skip_close hclose, hprefix]
  | @cons piece a pieces as hpiece hpieces =>
    obtain ⟨more, hmore⟩ := commaSeparated_cons piece pieces
    have hskip : skip (commaSeparated (piece :: pieces) ++ close :: rest) =
        commaSeparated (piece :: pieces) ++ close :: rest := by
      rw [hmore, List.append_assoc, hpiece.skip_append]
    have hfirst :
        (commaSeparated (piece :: pieces) ++ close :: rest).dropPrefix? [close] = none := by
      rw [hmore, List.append_assoc]
      exact hpiece.dropPrefix?_append (isBetween_close hclose) _
    have hlength : (piece :: pieces).length ≤
        (commaSeparated (piece :: pieces) ++ close :: rest).length := by
      have hcommas := length_le_commaSeparated (piece :: pieces)
      rw [List.length_append, List.length_cons (a := close)]
      omega
    rw [readEnclosed, hskip, hfirst]
    exact readMembers_commaSeparated hclose (.cons hpiece hpieces) (List.cons_ne_nil _ _) hskip
      hlength

end Parts

theorem takes_entry {reader : Reader α} {text : List Char} {a : α} (key : String)
    (h : Takes reader text a) :
    Takes (readEntry reader) (jsonString key.toList ++ [':', ' '] ++ text) (key, a) where
  starts := ⟨'"', _, rfl, by decide⟩
  read_eq := by
    intro rest hrest
    have hkey := (takes_jsonString key).read_eq (':' :: ' ' :: (text ++ rest))
      (by rintro _ _ ⟨⟩; decide)
    have hcolon : (skip (':' :: ' ' :: (text ++ rest))).dropPrefix? [':'] =
        some (' ' :: (text ++ rest)) := Cql.dropPrefix?_append [':'] _
    have hvalue := h.read_eq rest hrest
    have htext : jsonString key.toList ++ [':', ' '] ++ text ++ rest =
        jsonString key.toList ++ (':' :: ' ' :: (text ++ rest)) := by simp
    rw [htext]
    simp only [readEntry, hkey, bind, Option.bind_some, hcolon, skip_blank, h.skip_append, hvalue]
    rfl

/-! ## Values -/

section Values

variable {depth : Nat}

theorem takes_null : Takes (readValue (depth + 1)) "null".toList .null :=
  ⟨⟨'n', _, rfl, rfl⟩, fun _ _ => rfl⟩

theorem takes_true : Takes (readValue (depth + 1)) "true".toList (.bool true) :=
  ⟨⟨'t', _, rfl, rfl⟩, fun _ _ => rfl⟩

theorem takes_false : Takes (readValue (depth + 1)) "false".toList (.bool false) :=
  ⟨⟨'f', _, rfl, rfl⟩, fun _ _ => rfl⟩

theorem takes_text (s : String) :
    Takes (readValue (depth + 1)) (jsonString s.toList) (.text s) where
  starts := (takes_jsonString s).starts
  read_eq := by
    intro rest hrest
    show (readString (jsonString s.toList ++ rest)).map _ = _
    rw [(takes_jsonString s).read_eq rest hrest]
    rfl

/-- What begins with a sign or a digit is read as a number. -/
theorem readValue_number {c : Char} (hc : c = '-' ∨ c.isDigit = true) (rest : List Char) :
    readValue (depth + 1) (c :: rest) = (readInt (c :: rest)).map fun p => (.int p.1, p.2) := by
  have hne {d : Char} (hd : d ≠ '-') (hdigit : d.isDigit = false) : c ≠ d := by
    rintro rfl
    rcases hc with rfl | hc
    · exact hd rfl
    · rw [hc] at hdigit
      cases hdigit
  have hquote : c ≠ '"' := hne (by decide) rfl
  have hbracket : c ≠ '[' := hne (by decide) rfl
  have hbrace : c ≠ '\x7b' := hne (by decide) rfl
  rw [readValue, if_neg hquote, if_neg hbracket, if_neg hbrace]
  · exact fun _ h => absurd h (hne (by decide) rfl)
  · exact fun _ h => absurd h (hne (by decide) rfl)
  · exact fun _ h => absurd h (hne (by decide) rfl)

theorem takes_int {n : Int} (h : (natChars n.natAbs).length ≤ digitLimit) :
    Takes (readValue (depth + 1)) (intChars n) (.int n) where
  starts := (takes_intChars h).starts
  read_eq := by
    intro rest hrest
    have hread := (takes_intChars h).read_eq rest hrest
    have hhead : ∃ c more, intChars n = c :: more ∧ (c = '-' ∨ c.isDigit = true) := by
      cases n with
      | ofNat k =>
        obtain ⟨c, more, hc, hdigit⟩ := exists_digit_natChars k
        exact ⟨c, more, hc, .inr hdigit⟩
      | negSucc k => exact ⟨'-', _, rfl, .inl rfl⟩
    obtain ⟨c, more, hc, hkind⟩ := hhead
    rw [hc] at hread ⊢
    rw [List.cons_append] at hread ⊢
    rw [readValue_number hkind, hread]
    rfl

theorem takes_list {pieces : List (List Char)} {items : List Value}
    (h : List.Forall₂ (Takes (readValue depth)) pieces items) :
    Takes (readValue (depth + 1)) ('[' :: commaSeparated pieces ++ [']']) (.list items) where
  starts := ⟨'[', _, rfl, rfl⟩
  read_eq := by
    intro rest _
    have hread := readEnclosed_commaSeparated (.inl rfl) h rest
    rw [List.append_assoc]
    show (readEnclosed ']' (readValue depth) (commaSeparated pieces ++ ']' :: rest)).map _ = _
    rw [hread]
    rfl

theorem takes_record {pieces : List (List Char)} {fs : List (String × Value)}
    (h : List.Forall₂ (Takes (readEntry (readValue depth))) pieces fs) :
    Takes (readValue (depth + 1)) ('\x7b' :: commaSeparated pieces ++ ['\x7d'])
      (.record (textKeyed fs)) where
  starts := ⟨'\x7b', _, rfl, rfl⟩
  read_eq := by
    intro rest _
    have hread := readEnclosed_commaSeparated (.inr rfl) h rest
    rw [List.append_assoc]
    show (readEnclosed '\x7d' (readEntry (readValue depth))
      (commaSeparated pieces ++ '\x7d' :: rest)).map _ = _
    rw [hread]
    rfl

end Values

/-- A text that is taken as a value says that value. -/
theorem read?_of_takes {s : String} {v : Value} (h : Takes (readValue s.length) s.toList v) :
    read? s = some v := by
  have hread := h.read_eq [] (by rintro _ _ ⟨⟩)
  have hskip := h.skip_append []
  rw [List.append_nil] at hread hskip
  rw [read?, hskip, hread]
  rfl

end Concordance.Payload
