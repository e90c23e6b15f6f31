import Concordance.Page
import Concordance.Proofs.Text.Balance
import Concordance.Proofs.Text.Pieces
import Mathlib.Data.List.Chain

/-!
# Fences on a page

A page is read line by line: fences come in pairs, and the line below a pair is the link to what
stands in it.

* `IsFenced` — lines, and the blocks that their fences make of them.
* `IsLink` — a line that links one query, in a form that no viewer cuts short.
* `Shows` — a page fences some queries in order, each with its link below.
* `Sparse` — no two backquotes of a text are neighbours; such a text holds no fence
  (`fence_notMem_linesOf`).
* `Showable` — a text that fences and links can take.
* `LinesShow.prepend`, `linesShow_fenced` — sparse lines show nothing, and the lines of a fenced
  query show it, in front of whatever the lines after them show.
-/

namespace Concordance.Page

open Concordance.Text

/-! ## What a page shows -/

/-- The lines of a text. -/
def linesOf (s : String) : List (List Char) :=
  pieces '\n' s.toList

/-- What stands between two fences, and the line below them. -/
structure Block where
  inside : List Char
  below : List Char

/-- Lines in which every fence is the first or the second one of a block. -/
inductive IsFenced : List (List Char) → List Block → Prop where
  | done {ls : List (List Char)} (h : fence.toList ∉ ls) : IsFenced ls []
  | block {before inside rest : List (List Char)} {below : List Char} {blocks : List Block}
    (hbefore : fence.toList ∉ before) (hinside : fence.toList ∉ inside) (h : IsFenced rest blocks) :
    IsFenced (before ++ (fence.toList :: (inside ++ (fence.toList :: below :: rest))))
      (⟨List.intercalate ['\n'] inside, below⟩ :: blocks)

/-- The line is a link whose address is the base and an encoded form of the query, without white
space and with balanced parentheses. -/
def IsLink (base query : String) (line : List Char) : Prop :=
  ∃ address encoded, line = "[Open in NoSketch Engine](".toList ++ (address ++ [')']) ∧
    (∀ c ∈ address, isBlank c = false) ∧ Balanced address ∧ address = base.toList ++ encoded ∧
    Link.decode? (String.ofList encoded) = some query

/-- The lines fence the queries in order, each with its link below. -/
def LinesShow (base : String) (queries : List String) (ls : List (List Char)) : Prop :=
  ∃ blocks, IsFenced ls blocks ∧
    List.Forall₂ (fun block query => block.inside = query.toList ∧ IsLink base query block.below)
      blocks queries

/-- The page fences the queries in order, each with its link below. -/
def Shows (base : String) (queries : List String) (page : String) : Prop :=
  LinesShow base queries (linesOf page)

/-! ## Texts without a fence -/

/-- The character of fences and of quoted code. -/
def tick : Char := '\x60'

/-- No two backquotes are neighbours. -/
def Sparse (cs : List Char) : Prop :=
  cs.IsChain fun c d => c = tick → d ≠ tick

theorem sparse_of_notMem {cs : List Char} (h : tick ∉ cs) : Sparse cs := by
  induction cs with
  | nil => exact List.IsChain.nil
  | cons c rest ih =>
    rw [List.mem_cons, not_or] at h
    exact (ih h.2).cons fun _ _ hc => absurd hc.symm h.1

/-- Sparse texts stay sparse behind each other if no backquote begins the second one. -/
theorem Sparse.append {cs ds : List Char} (hcs : Sparse cs) (hds : Sparse ds)
    (hhead : ∀ d ∈ ds.head?, d ≠ tick) : Sparse (cs ++ ds) :=
  List.IsChain.append hcs hds fun _ _ d hd _ => hhead d hd

/-- A sparse text stays sparse behind one without backquotes. -/
theorem Sparse.prepend {cs ds : List Char} (hds : Sparse ds) (hcs : tick ∉ cs) :
    Sparse (cs ++ ds) :=
  List.IsChain.append (sparse_of_notMem hcs) hds fun _ hc _ _ hct =>
    absurd (hct ▸ List.mem_of_mem_getLast? hc) hcs

/-- Quoted code is sparse if it is not empty and holds no backquote. -/
theorem sparse_code {s : String} (hne : s ≠ "") (h : tick ∉ s.toList) :
    Sparse (code s).toList := by
  have hchars : (code s).toList = tick :: (s.toList ++ [tick]) := by
    simp [code, tick]
  have hnil : s.toList ≠ [] := by simpa using hne
  obtain ⟨c, rest, hs⟩ := List.exists_cons_of_ne_nil hnil
  rw [hchars]
  refine List.IsChain.cons ?_ fun d hd _ hdt => ?_
  · refine List.IsChain.append (sparse_of_notMem h) (List.isChain_singleton _)
      fun d hd _ _ hdt => ?_
    exact absurd (hdt ▸ List.mem_of_mem_getLast? hd) h
  · rw [hs, List.cons_append, List.head?_cons, Option.mem_some_iff] at hd
    exact h (by rw [hs, ← hdt, ← hd]; exact List.mem_cons_self ..)

theorem not_sparse_fence : ¬Sparse fence.toList := by
  intro h
  have hrel := (List.isChain_cons_cons.1 (show Sparse (tick :: tick :: [tick]) from h)).1
  exact hrel rfl rfl

/-- No line of a sparse text is a fence. -/
theorem fence_notMem_linesOf {s : String} (h : Sparse s.toList) : fence.toList ∉ linesOf s := by
  intro hmem
  have hline : Sparse fence.toList := List.IsChain.infix h (infix_of_mem_pieces hmem)
  exact not_sparse_fence hline

/-! ## The lines of a page -/

/-- The lines that some texts under each other have. -/
def split (ls : List String) : List (List Char) :=
  ls.flatMap linesOf

theorem split_append (ls ms : List String) : split (ls ++ ms) = split ls ++ split ms :=
  List.flatMap_append

theorem linesOf_ofLines {ls : List String} (hne : ls ≠ []) : linesOf (ofLines ls) = split ls := by
  have hmap : ls.map String.toList ≠ [] := by simpa using hne
  rw [linesOf, ofLines, String.toList_intercalate]
  show pieces '\n' (List.intercalate ['\n'] (ls.map String.toList)) = _
  rw [pieces_joined '\n' hmap, List.flatMap_map]
  rfl

theorem fence_notMem_split {ls : List String} (h : ∀ l ∈ ls, Sparse l.toList) :
    fence.toList ∉ split ls := by
  intro hmem
  obtain ⟨l, hl, hfence⟩ := List.mem_flatMap.1 hmem
  exact fence_notMem_linesOf (h l hl) hfence

/-- Sparse lines show nothing. -/
theorem linesShow_nil {base : String} {ls : List String} (h : ∀ l ∈ ls, Sparse l.toList) :
    LinesShow base [] (split ls) :=
  ⟨[], .done (fence_notMem_split h), .nil⟩

/-! ## Queries between fences -/

/-- A text that stands between fences as one text, and in a link without cutting it short. -/
structure Showable (cs : List Char) : Prop where
  noTick : tick ∉ cs
  balanced : Balanced cs

/-- An address that takes a query at its end: neither white space nor parentheses are in it. -/
def IsBase (base : String) : Prop :=
  ∀ c ∈ base.toList, isBlank c = false ∧ c ∉ parentheses

theorem isLink_link {base query : String} (hbase : IsBase base) (hquery : Balanced query.toList) :
    IsLink base query
      ("[Open in NoSketch Engine](" ++ Link.searchUrl base query ++ ")").toList := by
  refine ⟨base.toList ++ Link.encodeChars query.toList, Link.encodeChars query.toList, ?_, ?_, ?_,
    rfl, Link.decode?_encode query⟩
  · simp [Link.searchUrl, Link.encode]
  · intro c hc
    rcases List.mem_append.1 hc with hc | hc
    · exact (hbase c hc).1
    · exact Link.isBlank_of_isLinkChar (Link.isLinkChar_of_mem_encodeChars hc)
  · have hfree : ∀ d ∈ parentheses, d ∉ base.toList := fun d hd hmem => (hbase d hmem).2 hd
    exact (balanced_of_notMem (hfree _ (by decide)) (hfree _ (by decide))).append
      (balanced_encodeChars hquery)

theorem IsLink.newline_notMem {base query : String} {line : List Char}
    (h : IsLink base query line) : '\n' ∉ line := by
  obtain ⟨address, encoded, rfl, hblank, -⟩ := h
  have hnewline : isBlank '\n' = true := by decide
  have haddress : '\n' ∉ address := fun hmem => by
    rw [hblank _ hmem] at hnewline
    cases hnewline
  simp [haddress]

theorem IsFenced.prepend {front ls : List (List Char)} {blocks : List Block}
    (hfront : fence.toList ∉ front) (h : IsFenced ls blocks) : IsFenced (front ++ ls) blocks := by
  cases h with
  | done h => exact .done (by simp [hfront, h])
  | block hbefore hinside h =>
    rw [← List.append_assoc]
    exact .block (by simp [hfront, hbefore]) hinside h

/-- Sparse lines in front of others change nothing of what these show. -/
theorem LinesShow.prepend {base : String} {queries : List String} {front rest : List String}
    (hfront : ∀ l ∈ front, Sparse l.toList) (h : LinesShow base queries (split rest)) :
    LinesShow base queries (split (front ++ rest)) := by
  obtain ⟨blocks, hfenced, hblocks⟩ := h
  rw [split_append]
  exact ⟨blocks, hfenced.prepend (fence_notMem_split hfront), hblocks⟩

/-- The lines of a fenced query show it, in front of whatever the lines after them show. -/
theorem linesShow_fenced {base query : String} (hbase : IsBase base)
    (hquery : Showable query.toList) {rest queries : List String}
    (h : LinesShow base queries (split rest)) :
    LinesShow base (query :: queries) (split (fenced base query ++ rest)) := by
  obtain ⟨blocks, hfenced, hblocks⟩ := h
  have hlink := isLink_link hbase hquery.balanced
  have hinside := fence_notMem_linesOf (sparse_of_notMem hquery.noTick)
  have hsplit : split (fenced base query ++ rest) =
      [] ++ (fence.toList :: (linesOf query ++ (fence.toList ::
        ("[Open in NoSketch Engine](" ++ Link.searchUrl base query ++ ")").toList ::
          split rest))) := by
    have hbelow : linesOf ("[Open in NoSketch Engine](" ++ Link.searchUrl base query ++ ")") =
        [("[Open in NoSketch Engine](" ++ Link.searchUrl base query ++ ")").toList] :=
      pieces_eq_singleton hlink.newline_notMem
    have hfence : linesOf fence = [fence.toList] := rfl
    rw [split_append]
    simp only [split, fenced, List.flatMap_cons, List.flatMap_nil, hbelow, hfence, List.append_nil,
      List.append_assoc, List.cons_append, List.nil_append]
  rw [hsplit]
  refine ⟨_, .block List.not_mem_nil hinside hfenced, .cons ⟨?_, hlink⟩ hblocks⟩
  exact intercalate_pieces '\n' query.toList

end Concordance.Page
