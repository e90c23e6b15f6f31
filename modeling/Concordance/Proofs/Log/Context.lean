import Concordance.Log.Entry
import Concordance.Proofs.Trace.Gather
import Concordance.Proofs.Value.Written

/-!
# What log lines carry

A message carries what its logger was made with, what was bound to it since, and its own context; of
several values under one key the latest counts.

* `Chain` — a logger with what is bound to it in turn, and the context of a message.
* `Chain.layers`, `Chain.merged` — these records, the latest first, and what they come to.
* `lookup_merged` — what they come to holds under a key what the latest record has there.
* `context_eq` — it is what the message carries.
* `payload_says_context` — the message says it in one line of ASCII, in an order that depends on
  nothing else.
-/

namespace Concordance.Log

open Concordance.Payload Concordance.Trace Concordance.Value

/-- The record of a new logger, the records bound to it in turn, and the context of a message, if it
has one. -/
structure Chain where
  extra : List (String × Value)
  binds : List (List (String × Value)) := []
  own? : Option (List (String × Value)) := none

namespace Chain

/-- The logger, unless some key is no name. -/
def logger? (c : Chain) (name : String) : Except Fault Logger := do
  let l ← Logger.named name (textKeyed c.extra)
  c.binds.foldlM (fun l fs => l.bindNamed (textKeyed fs)) l

/-- The context of the message. -/
def own (c : Chain) : Value :=
  c.own?.elim .null fun fs => .record (textKeyed fs)

/-- The records, the latest first. -/
def layers (c : Chain) : List (List (String × Value)) :=
  c.own?.toList ++ c.binds.reverse ++ [c.extra]

/-- Records one after the other put into a first one. -/
def putAll (base : List (String × Value)) (rs : List (List (String × Value))) :
    List (String × Value) :=
  rs.foldl (gather fun _ v => v) base

/-- What the records come to. -/
def merged (c : Chain) : List (String × Value) :=
  putAll c.extra (c.binds ++ c.own?.toList)

/-- The records hold plain values, and leave out the keys that are no names. -/
structure Plain (c : Chain) : Prop where
  values_plain : ∀ fs ∈ c.layers, Value.Plain (.record (textKeyed fs))
  extra_free : Receiver.logger.taken ∉ c.extra.map Prod.fst
  binds_free : ∀ fs ∈ c.binds, Receiver.binding.taken ∉ fs.map Prod.fst

end Chain

/-! ## One record put into another -/

theorem assign_textKeyed (key : String) (v : Value) (fs : List (String × Value)) :
    assign (.text key) v (textKeyed fs) = textKeyed (upsert key (fun _ => v) fs) := by
  induction fs with
  | nil => rfl
  | cons e rest ih =>
    show assign (.text key) v ((.text e.1, e.2) :: textKeyed rest) = _
    rw [assign, sameKey_text, ih, upsert]
    by_cases h : e.1 = key
    · simp [h, textKeyed]
    · simp [h, textKeyed]

theorem merge_textKeyed (base more : List (String × Value)) :
    merge (textKeyed base) (textKeyed more) = textKeyed (gather (fun _ v => v) base more) := by
  induction more generalizing base with
  | nil => rfl
  | cons e rest ih =>
    show merge (assign (.text e.1) e.2 (textKeyed base)) (textKeyed rest) = _
    rw [assign_textKeyed, ih]
    rfl

/-- Under a key is what the second record has there, or else what the first one has. -/
theorem lookup_gather_layer (base : List (String × Value)) {more : List (String × Value)}
    (h : (more.map Prod.fst).Nodup) (key : String) :
    (gather (fun _ v => v) base more).lookup key = (more.lookup key).or (base.lookup key) := by
  induction more generalizing base with
  | nil => rfl
  | cons e rest ih =>
    obtain ⟨k, v⟩ := e
    obtain ⟨hk, hrest⟩ := List.nodup_cons.1 h
    have hfirst := ih (upsert k (fun _ => v) base) hrest
    rw [lookup_upsert] at hfirst
    refine hfirst.trans ?_
    by_cases hkey : key = k
    · subst hkey
      have hnone : rest.lookup key = none := by
        refine List.lookup_eq_none_iff.2 fun e he => ?_
        have hne : key ≠ e.1 := fun heq => hk (List.mem_map.2 ⟨e, he, heq.symm⟩)
        simpa using hne
      simp [hnone]
    · have hbeq : (key == k) = false := by simpa using hkey
      simp [List.lookup_cons, hbeq, hkey]

/-! ## Records one after the other -/

theorem lookup_putAll (base : List (String × Value)) {rs : List (List (String × Value))}
    (h : ∀ fs ∈ rs, (fs.map Prod.fst).Nodup) (key : String) :
    (Chain.putAll base rs).lookup key =
      (rs.reverse ++ [base]).findSome? fun fs => fs.lookup key := by
  induction rs using List.reverseRecOn with
  | nil => simp [Chain.putAll]
  | append_singleton rs fs ih =>
    obtain ⟨hrs, hfs⟩ := List.forall_mem_append.1 h
    have hput : Chain.putAll base (rs ++ [fs]) =
        gather (fun _ v => v) (Chain.putAll base rs) fs := List.foldl_append
    rw [hput, lookup_gather_layer _ (hfs fs (List.mem_singleton_self fs)), ih hrs,
      List.reverse_concat, List.cons_append, List.findSome?_cons]
    cases fs.lookup key <;> rfl

theorem nodup_putAll {base : List (String × Value)} (h : (base.map Prod.fst).Nodup)
    (rs : List (List (String × Value))) : ((Chain.putAll base rs).map Prod.fst).Nodup := by
  induction rs generalizing base with
  | nil => exact h
  | cons fs rest ih =>
    refine ih ?_
    rw [keys_gather _ h]
    exact nodup_firstSeen _

namespace Chain.Plain

variable {c : Chain} (h : c.Plain)

include h

theorem nodup_keys {fs : List (String × Value)} (hfs : fs ∈ c.layers) :
    (fs.map Prod.fst).Nodup :=
  (plain_record_iff.1 (h.values_plain fs hfs)).1

theorem nodup_merged : (c.merged.map Prod.fst).Nodup := by
  refine nodup_putAll (h.nodup_keys ?_) _
  simp [layers]

/-- Under a key is what the latest record with that key has there. -/
theorem lookup_merged (key : String) :
    c.merged.lookup key = c.layers.findSome? fun fs => fs.lookup key := by
  have hown : c.own?.toList.reverse = c.own?.toList := by cases c.own? <;> rfl
  rw [merged, lookup_putAll]
  · rw [List.reverse_append, hown]
    rfl
  · intro fs hfs
    refine h.nodup_keys ?_
    simp only [List.mem_append, Option.mem_toList] at hfs
    simp only [layers, List.mem_append, List.mem_reverse, Option.mem_toList]
    exact .inl hfs.symm

/-- What the records come to is plain. -/
theorem merged_plain : Value.Plain (.record (textKeyed c.merged)) := by
  refine .record h.nodup_merged fun e he => ?_
  have hlookup : c.merged.lookup e.1 = some e.2 := (lookup_eq_some_iff_mem h.nodup_merged).2 he
  rw [h.lookup_merged] at hlookup
  obtain ⟨fs, hfs, hvalue⟩ := List.exists_of_findSome?_eq_some hlookup
  have hmem := (lookup_eq_some_iff_mem (h.nodup_keys hfs)).1 hvalue
  exact (plain_record_iff.1 (h.values_plain fs hfs)).2 _ hmem

/-- The logger exists, with all that is bound to it. -/
theorem logger?_eq (name : String) :
    c.logger? name = .ok ⟨name, textKeyed (putAll c.extra c.binds)⟩ := by
  have hnamed : Logger.named name (textKeyed c.extra) = .ok ⟨name, textKeyed c.extra⟩ := by
    have hchecked : checkNames .logger (textKeyed c.extra) = .ok () := checkNames_text h.extra_free
    simp only [Logger.named, hchecked]
    rfl
  have hbinds (base : List (String × Value)) (rs : List (List (String × Value)))
      (hrs : ∀ fs ∈ rs, Receiver.binding.taken ∉ fs.map Prod.fst) :
      rs.foldlM (fun l fs => Logger.bindNamed l (textKeyed fs)) ⟨name, textKeyed base⟩ =
        .ok ⟨name, textKeyed (putAll base rs)⟩ := by
    induction rs generalizing base with
    | nil => rfl
    | cons fs rest ih =>
      obtain ⟨hfs, hrest⟩ := List.forall_mem_cons.1 hrs
      have hchecked : checkNames .binding (textKeyed fs) = .ok () := checkNames_text hfs
      have hbound : Logger.bindNamed ⟨name, textKeyed base⟩ (textKeyed fs) =
          .ok ⟨name, textKeyed (gather (fun _ v => v) base fs)⟩ := by
        simp only [Logger.bindNamed, hchecked, Logger.bind, merge_textKeyed]
        rfl
      rw [List.foldlM_cons, hbound]
      exact ih (gather (fun _ v => v) base fs) hrest
  rw [logger?, hnamed]
  exact hbinds c.extra c.binds h.binds_free

end Chain.Plain

/-- The message carries what the records come to. -/
theorem Chain.context_eq (c : Chain) (name : String) :
    Logger.context ⟨name, textKeyed (putAll c.extra c.binds)⟩ c.own = textKeyed c.merged := by
  unfold own merged
  cases c.own? with
  | none => simp [Logger.context]
  | some fs =>
    have hput : putAll c.extra (c.binds ++ [fs]) =
        gather (fun _ v => v) (putAll c.extra c.binds) fs := List.foldl_append
    show merge (textKeyed _) (textKeyed fs) = textKeyed (putAll c.extra (c.binds ++ [fs]))
    rw [merge_textKeyed, hput]

/-! ## The line -/

theorem textKeyed_eq_nil_iff {fs : List (String × Value)} : textKeyed fs = [] ↔ fs = [] :=
  List.map_eq_nil_iff

section Line

variable {l l' : Logger} {own own' : Value} {fs gs : List (String × Value)} (msg : String)

theorem line_of_nil (h : l.context own = []) : l.line msg own = msg := by
  rw [Logger.line, h]

/-- A context that holds something is written behind a bar. -/
theorem line_of_ne_nil (hcontext : l.context own = textKeyed fs)
    (hplain : Value.Plain (.record (textKeyed fs))) (hne : fs ≠ []) :
    l.line msg own = msg ++ " | " ++ String.ofList (written (.record (textKeyed fs))) := by
  rw [Logger.line, hcontext]
  split
  · rename_i hnil
    exact absurd (textKeyed_eq_nil_iff.1 hnil) hne
  · rw [payload_eq hplain]

/-- Contexts that are alike are written alike. -/
theorem line_eq_of_alike (hcontext : l.context own = textKeyed fs)
    (hcontext' : l'.context own' = textKeyed gs) (hfs : Value.Plain (.record (textKeyed fs)))
    (hgs : Value.Plain (.record (textKeyed gs)))
    (h : Alike (.record (textKeyed fs)) (.record (textKeyed gs))) :
    l'.line msg own' = l.line msg own := by
  have hnil : fs = [] ↔ gs = [] := by
    rw [← List.map_eq_nil_iff (f := Prod.fst), ← List.map_eq_nil_iff (f := Prod.fst) (l := gs),
      List.eq_nil_iff_forall_not_mem, List.eq_nil_iff_forall_not_mem]
    exact forall_congr' fun key => not_congr (h.mem_keys_iff key)
  by_cases hne : fs = []
  · rw [line_of_nil msg (hcontext.trans (textKeyed_eq_nil_iff.2 hne)),
      line_of_nil msg (hcontext'.trans (textKeyed_eq_nil_iff.2 (hnil.1 hne)))]
  · rw [line_of_ne_nil msg hcontext hfs hne,
      line_of_ne_nil msg hcontext' hgs fun hgs => hne (hnil.2 hgs),
      written_eq_of_alike h hfs hgs]

end Line

/-- Every message has a line.  After the message stands nothing if there is nothing to carry, and
else a bar and one line of ASCII; this says what the latest of the records have under their keys,
with the keys in order at every depth.  Two messages that carry the same mapping have the same
line. -/
theorem payload_says_context (name msg : String) (c : Chain) (h : c.Plain) :
    ∃ (l : Logger) (merged : List (String × Value)), c.logger? name = .ok l ∧
      l.context c.own = textKeyed merged ∧ (merged.map Prod.fst).Nodup ∧
      (∀ key, merged.lookup key = c.layers.findSome? fun fs => fs.lookup key) ∧
      (l.line msg c.own = msg ↔ merged = []) ∧
      (merged ≠ [] → ∃ (said : String) (v : Value), l.line msg c.own = msg ++ " | " ++ said ∧
        (∀ ch ∈ said.toList, 0x20 ≤ ch.toNat ∧ ch.toNat ≤ 0x7F) ∧
        read? said = some v ∧ v.Alike (.record (textKeyed merged)) ∧ v.Ordered) ∧
      ∀ (name' : String) (c' : Chain) (l' : Logger), c'.Plain → c'.logger? name' = .ok l' →
        Alike (.record (l.context c.own)) (.record (l'.context c'.own)) →
        l'.line msg c'.own = l.line msg c.own := by
  have hplain := h.merged_plain
  have hcontext := c.context_eq name
  refine ⟨_, c.merged, h.logger?_eq name, hcontext, h.nodup_merged, h.lookup_merged, ?_, ?_, ?_⟩
  · constructor
    · intro hline
      by_contra hne
      rw [line_of_ne_nil msg hcontext hplain hne] at hline
      have hlength := congrArg String.length hline
      have hbar : " | ".length = 3 := rfl
      simp only [String.length_append, hbar] at hlength
      omega
    · exact fun hnil => line_of_nil msg (hcontext.trans (textKeyed_eq_nil_iff.2 hnil))
  · intro hne
    refine ⟨_, _, line_of_ne_nil msg hcontext hplain hne, ?_, read?_written hplain,
      sorted_alike hplain, ordered_sorted hplain⟩
    rw [String.toList_ofList]
    exact isLineChar_of_mem_written hplain
  · intro name' c' l' h' hlogger halike
    have hl : l' = ⟨name', textKeyed (Chain.putAll c'.extra c'.binds)⟩ :=
      Except.ok.inj (hlogger.symm.trans (h'.logger?_eq name'))
    subst hl
    have hcontext' := c'.context_eq name'
    rw [hcontext, hcontext'] at halike
    exact line_eq_of_alike msg hcontext hcontext' hplain h'.merged_plain halike

/-- A key that is bound again is written with its last value, and a message that carries the same in
another order has the same line. -/
theorem key_bound_again_is_written_once :
    let c : Chain :=
      { extra := [("user", .text "é\n"), ("tries", .int 1)]
        binds := [[("tries", .int 2)]]
        own? := some [("tags", .list [.null, .bool true])] }
    let c' : Chain :=
      { extra := [("tags", .list [.null, .bool true]), ("tries", .int 2)]
        own? := some [("user", .text "é\n")] }
    c.Plain ∧ c'.Plain ∧ ∃ l l', c.logger? "first" = .ok l ∧ c'.logger? "second" = .ok l' ∧
      Alike (.record (l.context c.own)) (.record (l'.context c'.own)) ∧
      l.line "done" c.own =
        "done | \x7b\"tags\": [null, true], \"tries\": 2, \"user\": \"\\u00e9\\n\"\x7d" ∧
      l'.line "done" c'.own = l.line "done" c.own := by
  intro c c'
  have htext : Value.Plain (.text "é\n") := .text _
  have hone : Value.Plain (.int 1) := .int (by decide)
  have htwo : Value.Plain (.int 2) := .int (by decide)
  have htags : Value.Plain (.list [.null, .bool true]) :=
    .list (List.forall_mem_cons.2 ⟨.null, List.forall_mem_singleton.2 (.bool true)⟩)
  have hc : c.Plain := by
    refine ⟨?_, by decide, by decide⟩
    show ∀ fs ∈ [[("tags", .list [.null, .bool true])], [("tries", .int 2)],
      [("user", .text "é\n"), ("tries", .int 1)]], Value.Plain (.record (textKeyed fs))
    simp only [List.forall_mem_cons, List.not_mem_nil, false_implies, implies_true, and_true,
      plain_record_iff]
    exact ⟨⟨by decide, htags⟩, ⟨by decide, htwo⟩, by decide, htext, hone⟩
  have hc' : c'.Plain := by
    refine ⟨?_, by decide, by decide⟩
    show ∀ fs ∈ [[("user", .text "é\n")], [("tags", .list [.null, .bool true]), ("tries", .int 2)]],
      Value.Plain (.record (textKeyed fs))
    simp only [List.forall_mem_cons, List.not_mem_nil, false_implies, implies_true, and_true,
      plain_record_iff]
    exact ⟨⟨by decide, htext⟩, by decide, htags, htwo⟩
  have hl : c.logger? "first" =
      .ok ⟨"first", textKeyed [("user", .text "é\n"), ("tries", .int 2)]⟩ := rfl
  have hl' : c'.logger? "second" =
      .ok ⟨"second", textKeyed [("tags", .list [.null, .bool true]), ("tries", .int 2)]⟩ := rfl
  obtain ⟨l, merged, hlogger, -, -, -, -, -, hsame⟩ := payload_says_context "first" "done" c hc
  obtain rfl := Except.ok.inj (hlogger.symm.trans hl)
  have halike : Alike (.record (textKeyed c.merged)) (.record (textKeyed c'.merged)) :=
    .of_perm (by decide) (List.reverse_perm _).symm
  refine ⟨hc, hc', _, _, hl, hl', halike, rfl, ?_⟩
  exact hsame "second" c' _ hc' hl' halike

end Concordance.Log
