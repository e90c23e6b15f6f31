import Concordance.FirstSeen
import Concordance.Trace.Basic
import Mathlib.Data.List.Induction

/-!
# Items gathered under their names

What is under the names of a list when items were put there one after the other.

* `gather` — named items put under their names, each onto what is there already.
* `itemsUnder` — the items of one name, in order.
* `keys_gather` — the names are those of the items, in the order of their first occurrence.
* `lookup_gather` — under a name is what its own items come to.
* `foldl_sums` — numbers that are added up.
* `Stage.Sums`, `Stage.foldl_grown` — what a stage says of the durations that made it.
-/

namespace Concordance

/-- An item at the end is seen first if it is not among those before it. -/
theorem firstSeen_concat {α : Type} [DecidableEq α] (xs : List α) (x : α) :
    firstSeen (xs ++ [x]) = if x ∈ xs then firstSeen xs else firstSeen xs ++ [x] := by
  have hone : firstSeen [x] = [x] := rfl
  rw [firstSeen_append, hone]
  by_cases h : x ∈ xs
  · simp [h]
  · simp [h]

namespace Trace

variable {α β : Type}

/-! ## One item -/

theorem lookup_upsert (n name : String) (f : Option β → β) (es : List (String × β)) :
    (upsert name f es).lookup n = if n = name then some (f (es.lookup n)) else es.lookup n := by
  by_cases h : n = name
  · subst h
    rw [lookup_upsert_self, if_pos rfl]
  · rw [if_neg h]
    induction es with
    | nil =>
      have hbeq : (n == name) = false := by simpa using h
      simp [upsert, List.lookup_cons, hbeq]
    | cons e rest ih =>
      obtain ⟨k, b⟩ := e
      by_cases hk : k = name
      · subst hk
        have hbeq : (n == k) = false := by simpa using h
        simp [upsert, List.lookup_cons, hbeq]
      · simp only [upsert, hk, if_false, List.lookup_cons, ih]

theorem keys_upsert (name : String) (f : Option β → β) (es : List (String × β)) :
    (upsert name f es).map Prod.fst =
      if name ∈ es.map Prod.fst then es.map Prod.fst else es.map Prod.fst ++ [name] := by
  induction es with
  | nil => simp [upsert]
  | cons e rest ih =>
    obtain ⟨k, b⟩ := e
    by_cases hk : k = name
    · simp [upsert, hk]
    · rw [upsert, if_neg hk, List.map_cons, ih]
      by_cases hrest : name ∈ rest.map Prod.fst
      · simp [hrest]
      · simp [hrest, Ne.symm hk]

/-- What is put under a name may be said by what is there already. -/
theorem upsert_const (name : String) (f : Option β → β) (es : List (String × β)) :
    upsert name (fun _ => f (es.lookup name)) es = upsert name f es := by
  induction es with
  | nil => rfl
  | cons e rest ih =>
    obtain ⟨k, b⟩ := e
    by_cases hk : k = name
    · subst hk
      simp [upsert]
    · have hbeq : (name == k) = false := by simpa using Ne.symm hk
      simp only [upsert, hk, if_false, List.lookup_cons, hbeq, ih]

/-! ## Items one after the other -/

/-- Named items put under their names, each onto what is there already. -/
def gather (put : Option β → α → β) (es : List (String × β)) (xs : List (String × α)) :
    List (String × β) :=
  xs.foldl (fun es x => upsert x.1 (fun b => put b x.2) es) es

/-- The items of one name, in order. -/
def itemsUnder (name : String) (xs : List (String × α)) : List α :=
  (xs.filter fun x => x.1 = name).map Prod.snd

theorem gather_concat (put : Option β → α → β) (es : List (String × β)) (xs : List (String × α))
    (x : String × α) :
    gather put es (xs ++ [x]) = upsert x.1 (fun b => put b x.2) (gather put es xs) :=
  List.foldl_append

/-- The names are those of the items, in the order of their first occurrence. -/
theorem keys_gather (put : Option β → α → β) {es : List (String × β)}
    (hes : (es.map Prod.fst).Nodup) (xs : List (String × α)) :
    (gather put es xs).map Prod.fst = firstSeen (es.map Prod.fst ++ xs.map Prod.fst) := by
  induction xs using List.reverseRecOn with
  | nil => rw [List.map_nil, List.append_nil, firstSeen_eq_self hes]; rfl
  | append_singleton xs x ih =>
    rw [gather_concat, keys_upsert, ih, List.map_append, ← List.append_assoc, List.map_singleton,
      firstSeen_concat]
    simp only [mem_firstSeen]

theorem keys_gather_nil (put : Option β → α → β) (xs : List (String × α)) :
    (gather put [] xs).map Prod.fst = firstSeen (xs.map Prod.fst) := by
  have hnone : (([] : List (String × β)).map Prod.fst).Nodup := List.nodup_nil
  exact keys_gather put hnone xs

/-- Under a name is what its own items come to. -/
theorem lookup_gather (put : Option β → α → β) (es : List (String × β)) (xs : List (String × α))
    (name : String) :
    (gather put es xs).lookup name =
      (itemsUnder name xs).foldl (fun b a => some (put b a)) (es.lookup name) := by
  induction xs using List.reverseRecOn with
  | nil => rfl
  | append_singleton xs x ih =>
    rw [gather_concat, lookup_upsert, itemsUnder, List.filter_append, List.map_append,
      List.foldl_append, ← itemsUnder, ← ih]
    by_cases h : name = x.1
    · subst h
      simp
    · simp [h, Ne.symm h]

/-- The last item of a name is what is put there when each one takes the place of the one before. -/
theorem lookup_gather_last (es xs : List (String × α)) (name : String) :
    (gather (fun _ a => a) es xs).lookup name =
      (itemsUnder name xs).getLast?.or (es.lookup name) := by
  rw [lookup_gather]
  induction itemsUnder name xs using List.reverseRecOn with
  | nil => rfl
  | append_singleton as a _ => simp

/-! ## Sums -/

/-- Numbers added one by one to what is there, or else to zero, come to their sum. -/
theorem foldl_sums (x? : Option Float) (as : List Float) (hne : as ≠ []) :
    as.foldl (fun b a => some (b.getD 0 + a)) x? = some (as.foldl (· + ·) (x?.getD 0)) := by
  induction as generalizing x? with
  | nil => exact absurd rfl hne
  | cons a rest ih =>
    rw [List.foldl_cons, List.foldl_cons]
    cases rest with
    | nil => rfl
    | cons b more => exact ih _ (List.cons_ne_nil _ _)

/-! ## Stages -/

/-- The stage with one more timing, or a new one with it. -/
def Stage.grown (s? : Option Stage) (d : Float) : Stage :=
  (s?.getD (.start d)).add d

/-- What a stage says of its durations. -/
structure Stage.Sums (s : Stage) (ds : List Float) : Prop where
  count_eq : s.count = ds.length
  total_eq : s.total = ds.foldl (· + ·) 0
  least_mem : s.least ∈ ds
  greatest_mem : s.greatest ∈ ds

theorem Stage.sums_grown_none (d : Float) : (Stage.grown none d).Sums [d] := by
  have hsame : (if d < d then d else d) ∈ [d] := by
    rw [ite_self]
    exact List.mem_singleton_self d
  exact ⟨rfl, rfl, hsame, hsame⟩

theorem Stage.Sums.grown {s : Stage} {ds : List Float} (h : s.Sums ds) (d : Float) :
    (Stage.grown (some s) d).Sums (ds ++ [d]) := by
  have hlast : d ∈ ds ++ [d] := List.mem_append_right _ (List.mem_singleton_self d)
  refine ⟨?_, ?_, ?_, ?_⟩
  · rw [List.length_append, ← h.count_eq]
    rfl
  · rw [List.foldl_append, ← h.total_eq]
    rfl
  · show (if d < s.least then d else s.least) ∈ ds ++ [d]
    split
    · exact hlast
    · exact List.mem_append_left _ h.least_mem
  · show (if s.greatest < d then d else s.greatest) ∈ ds ++ [d]
    split
    · exact hlast
    · exact List.mem_append_left _ h.greatest_mem

/-- The stage that some durations make says their sums; without durations there is none. -/
theorem Stage.foldl_grown (ds : List Float) :
    (ds = [] ∧ ds.foldl (fun s? d => some (Stage.grown s? d)) none = none) ∨
      ∃ s, ds.foldl (fun s? d => some (Stage.grown s? d)) none = some s ∧ s.Sums ds := by
  induction ds using List.reverseRecOn with
  | nil => exact .inl ⟨rfl, rfl⟩
  | append_singleton ds d ih =>
    rw [List.foldl_append]
    rcases ih with ⟨rfl, -⟩ | ⟨s, hs, hsums⟩
    · exact .inr ⟨_, rfl, sums_grown_none d⟩
    · rw [hs]
      exact .inr ⟨_, rfl, hsums.grown d⟩

end Trace

end Concordance
