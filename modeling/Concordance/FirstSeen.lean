/-!
# Lists without repeats

* `firstSeen` — the items of a list in the order of their first occurrence, each one once.
* `mem_firstSeen` — it has the same items.
* `nodup_firstSeen` — none occurs twice.
* `firstSeen_eq_self` — a list without repeats stays as it is.
* `firstSeen_map` — it commutes with a map that keeps the items of the list apart.
* `firstSeen_append`, `firstSeen_flatMap` — of lists one after the other.
* `length_firstSeen_append` — lists that share one item have one less together.
* `length_firstSeen_append_of_disjoint` — lists that share none have as many together as apart.
-/

namespace Concordance

variable {α : Type} [DecidableEq α]

/-- The items in the order of their first occurrence, each one once. -/
def firstSeen : List α → List α
  | [] => []
  | x :: rest => x :: (firstSeen rest).filter fun y => y ≠ x

@[simp]
theorem mem_firstSeen {x : α} {xs : List α} : x ∈ firstSeen xs ↔ x ∈ xs := by
  induction xs with
  | nil => simp [firstSeen]
  | cons y rest ih =>
    by_cases h : x = y
    · simp [firstSeen, h]
    · simp [firstSeen, h, ih]

theorem nodup_firstSeen (xs : List α) : (firstSeen xs).Nodup := by
  induction xs with
  | nil => simp [firstSeen]
  | cons x rest ih =>
    refine List.nodup_cons.2 ⟨?_, ih.filter _⟩
    simp

theorem firstSeen_eq_self {xs : List α} (h : xs.Nodup) : firstSeen xs = xs := by
  induction xs with
  | nil => rfl
  | cons x rest ih =>
    obtain ⟨hx, hrest⟩ := List.nodup_cons.1 h
    rw [firstSeen, ih hrest]
    congr 1
    refine List.filter_eq_self.2 fun y hy => ?_
    simpa using fun hyx : y = x => hx (hyx ▸ hy)

theorem firstSeen_map {β : Type} [DecidableEq β] {f : α → β} {xs : List α}
    (hf : ∀ x ∈ xs, ∀ y ∈ xs, f x = f y → x = y) :
    firstSeen (xs.map f) = (firstSeen xs).map f := by
  induction xs with
  | nil => rfl
  | cons x rest ih =>
    have hrest := ih fun a ha b hb => hf a (List.mem_cons_of_mem _ ha) b (List.mem_cons_of_mem _ hb)
    rw [List.map_cons, firstSeen, hrest, firstSeen, List.map_cons, List.filter_map]
    congr 2
    refine List.filter_congr fun y hy => ?_
    have hy' : y ∈ x :: rest := List.mem_cons_of_mem _ (mem_firstSeen.1 hy)
    have hiff : f y = f x ↔ y = x :=
      ⟨hf y hy' x (List.mem_cons_self ..), fun h => congrArg f h⟩
    simp [hiff]

theorem firstSeen_eq_nil_iff {xs : List α} : firstSeen xs = [] ↔ xs = [] := by
  cases xs <;> simp [firstSeen]

theorem length_firstSeen_le (xs : List α) : (firstSeen xs).length ≤ xs.length := by
  induction xs with
  | nil => exact Nat.le_refl _
  | cons x rest ih => exact Nat.succ_le_succ (Nat.le_trans (List.length_filter_le _ _) ih)

theorem firstSeen_append (xs ys : List α) :
    firstSeen (xs ++ ys) = firstSeen xs ++ (firstSeen ys).filter fun y => y ∉ xs := by
  induction xs with
  | nil => exact (List.filter_eq_self.2 fun y _ => by simp).symm
  | cons x rest ih =>
    rw [List.cons_append, firstSeen, ih, List.filter_append, List.filter_filter, firstSeen,
      List.cons_append]
    congr 2
    refine List.filter_congr fun y _ => ?_
    simp

/-- Repeats may be dropped part by part first. -/
theorem firstSeen_flatMap {β : Type} (f : β → List α) (xs : List β) :
    firstSeen (xs.flatMap fun x => firstSeen (f x)) = firstSeen (xs.flatMap f) := by
  induction xs with
  | nil => rfl
  | cons x rest ih =>
    rw [List.flatMap_cons, List.flatMap_cons, firstSeen_append, firstSeen_append, ih,
      firstSeen_eq_self (nodup_firstSeen (f x))]
    simp only [mem_firstSeen]

/-- Lists that share one item only have one item less together. -/
theorem length_firstSeen_append {w : α} {xs ys : List α} (hxs : w ∈ xs) (hys : w ∈ ys)
    (hshared : ∀ y ∈ ys, y ∈ xs → y = w) :
    (firstSeen (xs ++ ys)).length + 1 = (firstSeen xs).length + (firstSeen ys).length := by
  have hother : (firstSeen ys).filter (fun y => y ∉ xs) = (firstSeen ys).erase w := by
    rw [(nodup_firstSeen ys).erase_eq_filter]
    refine List.filter_congr fun y hy => ?_
    have hiff : y ∈ xs ↔ y = w := ⟨hshared y (mem_firstSeen.1 hy), fun h => h ▸ hxs⟩
    rw [Bool.eq_iff_iff]
    simp [hiff]
  have hpos : 0 < (firstSeen ys).length := List.length_pos_of_mem (mem_firstSeen.2 hys)
  rw [firstSeen_append, hother, List.length_append, List.length_erase_of_mem (mem_firstSeen.2 hys)]
  omega

theorem length_firstSeen_append_of_disjoint {xs ys : List α} (h : ∀ y ∈ ys, y ∉ xs) :
    (firstSeen (xs ++ ys)).length = (firstSeen xs).length + (firstSeen ys).length := by
  have hkeep : (firstSeen ys).filter (fun y => y ∉ xs) = firstSeen ys :=
    List.filter_eq_self.2 fun y hy => by simpa using h y (mem_firstSeen.1 hy)
  rw [firstSeen_append, hkeep, List.length_append]

end Concordance
