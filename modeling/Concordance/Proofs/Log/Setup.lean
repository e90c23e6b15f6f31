import Concordance.Log.Setup
import Concordance.Proofs.Log.Level

/-!
# Attempts to set logging up

An attempt takes effect if it is the first one that succeeds or if it is forced.  Then it replaces
the level of the project's messages, and that of all messages where there is no handler left.

* `Setup.Effective`, `Setup.Lacks` — an attempt takes effect, and it finds no handler.
* `configure_of_settable`, `configure_of_error` — all that an attempt with effect does.
* `level_text_is_set_unless_reserved` — a text as the level is set as the number that it means,
  unless its name is reserved; then the attempt fails halfway.
* `reserved_name_breaks_setup` — so a text can make the first attempt fail.
* `Setup.Stands` — logging is set up with one handler and one level.
* `Attempt`, `lastEffective` — a row of attempts, and the last one that takes effect.
* `logging_is_set_once_unless_forced` — its level is the one that stands.
-/

namespace Concordance.Log

open Concordance.Decimal

namespace Setup

/-- An attempt takes effect: none has succeeded before, or it is forced. -/
def Effective (s : Setup) (force : Bool) : Prop :=
  s.configured = false ∨ force = true

/-- An attempt finds no handler: there is none, or it removes them. -/
def Lacks (s : Setup) (force : Bool) : Prop :=
  s.handlers = 0 ∨ force = true

instance (s : Setup) (force : Bool) : Decidable (s.Lacks force) :=
  inferInstanceAs (Decidable (_ ∨ _))

section Attempts

variable {s : Setup} {given environment : Value} {force : Bool} {level : Level}

theorem configure_of_not_effective (h : ¬s.Effective force) :
    s.configure given environment force = (s, .ok ()) := by
  rw [Effective, not_or, Bool.not_eq_false, Bool.not_eq_true] at h
  rw [configure, h.1, h.2]
  rfl

/-- An attempt with effect is made with the level that is consulted. -/
theorem configure_of_effective (h : s.Effective force)
    (hlevel : Level.resolve (consulted given environment) = .ok level) :
    s.configure given environment force =
      match (s.cleared force).basic level with
      | (s, .error f) => (s, .error f)
      | (s, .ok ()) => s.finish level := by
  have hcondition : ¬(s.configured && !force) = true := by
    rcases h with h | h <;> simp [h]
  unfold configure
  refine (if_neg hcondition).trans ?_
  cases hbasic : (s.cleared force).basic level with
  | mk s' done => cases done <;> simp only [hlevel, hbasic]

/-- The first half of an attempt does nothing where a handler is left. -/
theorem basic_cleared : (s.cleared force).basic level =
    if s.Lacks force then ({ s with handlers := 0 } : Setup).basic level else (s, .ok ()) := by
  by_cases hforce : force = true
  · simp [cleared, Lacks, hforce]
  · by_cases hhandlers : s.handlers = 0 <;> simp [cleared, basic, Lacks, hforce, hhandlers]

/-- An attempt with effect sets the level of the project, and that of all messages where it finds no
handler. -/
theorem configure_of_settable (h : s.Effective force)
    (hlevel : Level.resolve (consulted given environment) = .ok level)
    (hsettable : level.settable = .ok ()) :
    s.configure given environment force =
      ({ configured := true
         root := if s.Lacks force then level else s.root
         handlers := if s.Lacks force then 1 else s.handlers
         project := level }, .ok ()) := by
  rw [configure_of_effective h hlevel, basic_cleared]
  by_cases hlacks : s.Lacks force <;> simp [basic, finish, hsettable, hlacks]

/-- What cannot be set leaves both levels; where there is no handler one is added nevertheless. -/
theorem configure_of_error {f : Fault} (h : s.Effective force)
    (hlevel : Level.resolve (consulted given environment) = .ok level)
    (hsettable : level.settable = .error f) :
    s.configure given environment force =
      ({ s with handlers := if s.Lacks force then 1 else s.handlers }, .error f) := by
  rw [configure_of_effective h hlevel, basic_cleared]
  by_cases hlacks : s.Lacks force <;> simp [basic, finish, hsettable, hlacks]

end Attempts

end Setup

/-! ## Texts as levels -/

/-- A text is the level that is consulted: it is given, or nothing is given and it is found in the
environment. -/
def Consults (given environment : Value) (s : String) : Prop :=
  given = .text s ∨ given = .null ∧ environment = .text s

theorem Consults.consulted_eq {given environment : Value} {s : String}
    (h : Consults given environment s) : consulted given environment = .text s := by
  rcases h with rfl | ⟨rfl, rfl⟩ <;> rfl

theorem settable_words (w : String) : ∃ f, (Level.words w).settable = .error f :=
  ⟨_, rfl⟩

/-- **A text as the level is set as the number that it means, unless its name is reserved.**  Every
text means one number: the whole number that it denotes, or else the level of its name, or else 20.
If the name is not reserved, the text resolves to that number, and an attempt to set logging up
succeeds in every state and leaves the project at it, if it takes effect.  A reserved name resolves
to no number; an attempt with effect then fails and leaves both levels, but not without a handler.
An attempt without effect changes nothing. -/
theorem level_text_is_set_unless_reserved {given environment : Value} {text : String}
    (htext : Consults given environment text) (s : Setup) (force : Bool) :
    ∃ n, (∀ m, Means text m ↔ m = n) ∧
      (Level.resolve (.text text) = .ok (.number n) ↔ ¬Reserved text) ∧
      (¬Reserved text → (s.configure given environment force).2 = .ok ()) ∧
      (s.Effective force → ¬Reserved text →
        (s.configure given environment force).1.project = .number n ∧
        (s.configure given environment force).1.configured = true) ∧
      (s.Effective force → Reserved text →
        ∃ f, s.configure given environment force =
          ({ s with handlers := if s.Lacks force then 1 else s.handlers }, .error f)) ∧
      (¬s.Effective force → s.configure given environment force = (s, .ok ())) := by
  obtain ⟨n, hn, hunique⟩ := existsUnique_means text
  have hconsulted := htext.consulted_eq
  have hset (hfree : ¬Reserved text) (heffective : s.Effective force) :
      s.configure given environment force =
        ({ configured := true
           root := if s.Lacks force then .number n else s.root
           handlers := if s.Lacks force then 1 else s.handlers
           project := .number n }, .ok ()) :=
    Setup.configure_of_settable heffective (hconsulted ▸ resolve_of_means hn hfree) rfl
  refine ⟨n, fun m => ⟨hunique m, ?_⟩, ⟨?_, resolve_of_means hn⟩, ?_, ?_, ?_,
    Setup.configure_of_not_effective⟩
  · rintro rfl
    exact hn
  · intro hnumber hreserved
    obtain ⟨w, -, hwords⟩ := resolve_of_reserved hreserved
    rw [hwords] at hnumber
    cases hnumber
  · intro hfree
    by_cases heffective : s.Effective force
    · rw [hset hfree heffective]
    · rw [Setup.configure_of_not_effective heffective]
  · intro heffective hfree
    rw [hset hfree heffective]
    exact ⟨rfl, rfl⟩
  · intro heffective hreserved
    obtain ⟨w, -, hwords⟩ := resolve_of_reserved hreserved
    obtain ⟨f, hf⟩ := settable_words w
    exact ⟨f, Setup.configure_of_error heffective (hconsulted ▸ hwords) hf⟩

theorem not_denotes_of_malformed {text : String} (h : readInt text.toList = .malformed) :
    ¬∃ m, Denotes text.toList m := by
  rintro ⟨m, hm⟩
  rw [readInt_eq_number_iff.2 hm] at h
  cases h

theorem basicFormat_ne_styleTable : basicFormat ≠ styleTable := by decide

/-- A level that is taken from the environment after an attempt failed is set, although the level of
all messages stays. -/
theorem padded_level_is_set_after_failure :
    Consults .null (.text " Debug ") " Debug " ∧
    ({ handlers := 1 } : Setup).Effective false ∧ ¬Reserved " Debug " ∧
    (({ handlers := 1 } : Setup).configure .null (.text " Debug ") false).1.project =
      .number 10 := by
  have htext : Consults .null (.text " Debug ") " Debug " := .inr ⟨rfl, rfl⟩
  have hno : ¬∃ m, Denotes " Debug ".toList m := not_denotes_of_malformed (by decide)
  have hfree : ¬Reserved " Debug " := fun h => absurd h.2 (by decide)
  obtain ⟨n, hmeans, -, -, hset, -⟩ :=
    level_text_is_set_unless_reserved htext { handlers := 1 } false
  have hn : 10 = n := (hmeans 10).1 (.name hno (by decide))
  refine ⟨htext, .inl rfl, hfree, ?_⟩
  rw [hn]
  exact (hset (.inl rfl) hfree).1

/-- The name of the line pattern means 20 like every text that is no level, but it resolves to the
pattern, and the first attempt with it fails. -/
theorem reserved_name_breaks_setup :
    Means "basic_format" 20 ∧
    Level.resolve (.text "basic_format") = .ok (.words basicFormat) ∧
    ({} : Setup).configure (.text "basic_format") .null false =
      ({ handlers := 1 }, .error (.unknownLevel basicFormat)) := by
  have hno : ¬∃ m, Denotes "basic_format".toList m := not_denotes_of_malformed (by decide)
  have hresolve : Level.resolve (.text "basic_format") = .ok (.words basicFormat) := by
    have hname : Text.upperName "basic_format" = "BASIC_FORMAT" := by decide
    have hmem : (Text.upperName "basic_format", basicFormat) ∈ reservedNames :=
      hname ▸ List.mem_cons_self ..
    rw [resolve_of_no_number hno, ofName_of_mem (words_mem_levelNames hmem)]
  have hsettable : (Level.words basicFormat).settable = .error (.unknownLevel basicFormat) := by
    rw [Level.settable, if_neg basicFormat_ne_styleTable]
  exact ⟨.other hno (by decide), hresolve,
    Setup.configure_of_error (.inl rfl) hresolve hsettable⟩

/-! ## Rows of attempts -/

/-- One attempt. -/
structure Attempt where
  given : Value := .null
  environment : Value := .null
  force : Bool := false

/-- A level that serves as a number. -/
def Level.IsNumber : Level → Prop
  | number _ | flag _ => True
  | words _ => False

/-- The level that an attempt consults is a number: what is given resolves to it, or, where nothing
is given, what is found in the environment. -/
def Attempt.Gives (a : Attempt) (level : Level) : Prop :=
  level.IsNumber ∧
    (a.given ≠ .null ∧ Level.resolve a.given = .ok level ∨
      a.given = .null ∧ Level.resolve a.environment = .ok level)

/-- The state after attempts one after the other. -/
def Setup.after (s : Setup) (attempts : List Attempt) : Setup :=
  attempts.foldl (fun s a => (s.configure a.given a.environment a.force).1) s

/-- The last attempt that takes effect: the last one that is forced, or else the first one. -/
def lastEffective (first : Attempt) (rest : List Attempt) : Attempt :=
  (rest.filter (·.force)).getLast?.getD first

/-- Logging is set up with one handler, and one level for all messages and the project's. -/
structure Setup.Stands (s : Setup) (level : Level) : Prop where
  configured : s.configured = true
  handlers : s.handlers = 1
  root : s.root = level
  project : s.project = level

section Rows

variable {s : Setup} {first a : Attempt} {rest : List Attempt} {level : Level}

theorem settable_of_isNumber (h : level.IsNumber) : level.settable = .ok () := by
  cases level with
  | number | flag => rfl
  | words w => cases h

theorem Attempt.Gives.resolve_eq (h : a.Gives level) :
    Level.resolve (consulted a.given a.environment) = .ok level := by
  obtain ⟨-, ⟨hgiven, hlevel⟩ | ⟨hgiven, hlevel⟩⟩ := h
  · have hconsulted : consulted a.given a.environment = a.given := by
      cases hvalue : a.given with
      | null => exact absurd hvalue hgiven
      | bool | int | float | text | choice | bytes | list | record => rfl
    rw [hconsulted, hlevel]
  · rw [hgiven]
    exact hlevel

theorem Attempt.Gives.unique {level' : Level} (h : a.Gives level) (h' : a.Gives level') :
    level = level' := by
  have hlevels := h.resolve_eq
  rw [h'.resolve_eq] at hlevels
  exact (Except.ok.inj hlevels).symm

/-- After an attempt with effect that finds no handler, its level stands. -/
theorem stands_of_effective (h : s.Effective a.force) (hlacks : s.Lacks a.force)
    (hgives : a.Gives level) : (s.configure a.given a.environment a.force).1.Stands level := by
  rw [Setup.configure_of_settable h hgives.resolve_eq (settable_of_isNumber hgives.1)]
  exact ⟨rfl, if_pos hlacks, if_pos hlacks, rfl⟩

/-- Once logging is set up, an attempt that is not forced changes nothing. -/
theorem Setup.Stands.configure_eq (h : s.Stands level) (given environment : Value) :
    s.configure given environment false = (s, .ok ()) := by
  refine configure_of_not_effective ?_
  rw [Effective, h.configured]
  simp

theorem lastEffective_cons : lastEffective first (a :: rest) =
    if a.force then lastEffective a rest else lastEffective first rest := by
  cases hforce : a.force with
  | false => simp [lastEffective, hforce]
  | true => simp [lastEffective, hforce, List.getLast?_cons]

/-- From a state with a level that stands on, the level of the last attempt with effect stands. -/
theorem stands_after (h : s.Stands level) (hfirst : first.Gives level)
    (hrest : ∀ a ∈ rest, a.force = true → ∃ level, a.Gives level) :
    ∃ level, (lastEffective first rest).Gives level ∧ (s.after rest).Stands level := by
  induction rest generalizing s first level with
  | nil => exact ⟨level, hfirst, h⟩
  | cons a rest ih =>
    have hmore : ∀ b ∈ rest, b.force = true → ∃ level, b.Gives level :=
      fun b hb => hrest b (List.mem_cons_of_mem _ hb)
    -- A forced attempt takes the place of the first one; any other leaves the state as it is.
    rw [lastEffective_cons]
    show ∃ level, _ ∧ ((s.configure a.given a.environment a.force).1.after rest).Stands level
    cases hforce : a.force with
    | true =>
      obtain ⟨next, hnext⟩ := hrest a (List.mem_cons_self ..) hforce
      have hstands := stands_of_effective (s := s) (.inr hforce) (.inr hforce) hnext
      rw [hforce] at hstands
      exact ih hstands hnext hmore
    | false =>
      rw [h.configure_eq]
      exact ih h hfirst hmore

end Rows

/-- **Logging is set up once, unless that is forced.**  From a state without handlers in which no
attempt has succeeded, in every row of attempts whose consulted levels are numbers, after each
attempt the level of the last one with effect stands: it is the level of all messages and of the
project's, there is one handler, and a further attempt that is not forced changes nothing, whatever
is given or found in the environment. -/
theorem logging_is_set_once_unless_forced {s : Setup} (hnew : s.configured = false)
    (hhandlers : s.handlers = 0) (first : Attempt) (rest : List Attempt)
    (hgives : ∀ a ∈ first :: rest.filter (·.force), ∃ level, a.Gives level) :
    ∀ done, done <+: rest →
      ∃ level, (lastEffective first done).Gives level ∧
        (s.after (first :: done)).Stands level ∧
        ∀ given environment,
          (s.after (first :: done)).configure given environment false =
            (s.after (first :: done), .ok ()) := by
  intro done hdone
  obtain ⟨level, hfirst⟩ := hgives first (List.mem_cons_self ..)
  have hforced : ∀ a ∈ done, a.force = true → ∃ level, a.Gives level := by
    intro a ha hforce
    exact hgives a (List.mem_cons_of_mem _ (List.mem_filter.2 ⟨hdone.subset ha, hforce⟩))
  have hstands := stands_of_effective (a := first) (.inl hnew) (.inl hhandlers) hfirst
  obtain ⟨last, hlast, hafter⟩ := stands_after hstands hfirst hforced
  exact ⟨last, hlast, hafter, hafter.configure_eq⟩

/-- A level zero that is given wins over the environment and stays through an attempt with infinity,
which would not resolve, until another level is forced. -/
theorem forced_level_replaces_zero :
    let first : Attempt := { given := .int 0, environment := .text "error" }
    let idle : Attempt := { given := .float (Decimal.infinity false) }
    let forced : Attempt := { environment := .text " 1_0 ", force := true }
    (∀ a ∈ first :: [idle, forced].filter (·.force), ∃ level, a.Gives level) ∧
    (({} : Setup).after [first, idle]).Stands (.number 0) ∧
    (({} : Setup).after [first, idle, forced]).Stands (.number 10) := by
  intro first idle forced
  have hread : readInt " 1_0 ".toList = .number 10 := by decide
  have hzero : first.Gives (.number 0) := ⟨trivial, .inl ⟨Value.noConfusion, rfl⟩⟩
  have hten : forced.Gives (.number 10) :=
    ⟨trivial, .inr ⟨rfl, resolve_of_denotes (readInt_eq_number_iff.1 hread)⟩⟩
  have hgives : ∀ a ∈ first :: [idle, forced].filter (·.force), ∃ level, a.Gives level :=
    List.forall_mem_cons.2 ⟨⟨_, hzero⟩, List.forall_mem_singleton.2 ⟨_, hten⟩⟩
  have hafter := logging_is_set_once_unless_forced (s := {}) rfl rfl first [idle, forced] hgives
  obtain ⟨m, hm, hidle, -⟩ := hafter [idle] ⟨[forced], rfl⟩
  obtain ⟨n, hn, hforced, -⟩ := hafter [idle, forced] (List.prefix_refl _)
  exact ⟨hgives, hm.unique hzero ▸ hidle, hn.unique hten ▸ hforced⟩

end Concordance.Log
