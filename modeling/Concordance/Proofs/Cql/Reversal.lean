import Concordance.Proofs.Cql.Meaning

/-!
# Sequences read backwards

A sequence of items that is turned around matches the same tokens in the opposite order, because an
item alone matches the same tokens in both directions.

* `Item.language_reverse`, `Sequence.language_reverse` — the meaning of an item and of a sequence
  that is turned around.
* `Expression.Reversible` — with each sequence the expression holds the one turned around.
* `Expression.Reversible.reverse_mem_iff` — then it matches tokens in both directions alike.
-/

namespace Concordance.Cql

variable {R : Reading}

theorem reverse_single (P : Token → Prop) : (single P).reverse = single P := by
  ext w
  rw [Language.mem_reverse]
  constructor
  · rintro ⟨k, hk, hP⟩
    exact ⟨k, by rw [← w.reverse_reverse, hk, List.reverse_singleton], hP⟩
  · rintro ⟨k, rfl, hP⟩
    exact ⟨k, List.reverse_singleton, hP⟩

theorem reverse_upTo (bound : Int) (P : Token → Prop) : (upTo bound P).reverse = upTo bound P := by
  ext w
  rw [Language.mem_reverse]
  show (w.reverse.length : Int) ≤ bound ∧ (∀ k ∈ w.reverse, P k) ↔
    (w.length : Int) ≤ bound ∧ ∀ k ∈ w, P k
  simp only [List.length_reverse, List.mem_reverse]

/-- An item matches the same tokens in both directions. -/
theorem Item.language_reverse (i : Item) : (i.language R).reverse = i.language R := by
  cases i with
  | token test => exact reverse_single _
  | gap excluded bound => exact reverse_upTo _ _
  | group tests => exact reverse_single _

/-- A sequence that is turned around matches what the sequence matches, backwards. -/
theorem Sequence.language_reverse (s : Sequence) :
    Sequence.language R s.reverse = (Sequence.language R s).reverse := by
  induction s with
  | nil => exact Language.reverse_one.symm
  | cons i rest ih =>
    have hcons : Sequence.language R (i :: rest) = i.language R * Sequence.language R rest := rfl
    have hsnoc : Sequence.language R (rest.reverse ++ [i]) =
        Sequence.language R rest.reverse * i.language R := by
      simp [Sequence.language]
    rw [List.reverse_cons, hsnoc, ih, hcons, Language.reverse_mul, i.language_reverse]

/-- With each sequence the expression holds the one turned around. -/
def Expression.Reversible (e : Expression) : Prop :=
  ∀ s ∈ e, s.reverse ∈ e

/-- Such an expression matches tokens in both directions alike. -/
theorem Expression.Reversible.reverse_mem_iff {e : Expression} (h : e.Reversible)
    (w : List Token) : w.reverse ∈ Expression.language R e ↔ w ∈ Expression.language R e := by
  have hturn : ∀ v, v ∈ Expression.language R e → v.reverse ∈ Expression.language R e := by
    rintro v ⟨s, hs, hv⟩
    refine ⟨s.reverse, h s hs, ?_⟩
    rw [Sequence.language_reverse]
    exact Language.reverse_mem_reverse.2 hv
  exact ⟨fun hw => w.reverse_reverse ▸ hturn _ hw, hturn w⟩

end Concordance.Cql
