import Concordance.Trace.Clock

/-!
# Clocks that give readings

* `Clock.Reliable` — every reading of the clock succeeds.
* `Clock.reading`, `Clock.next` — the next reading of such a clock, and the clock after it.
* `reliable_of_closed` — clocks of a class that readings lead back into are reliable.
* `Clock.Agrees` — two clocks give the same readings from now on.
-/

namespace Concordance.Trace

namespace Clock

/-- The clock after some readings. -/
def after (c : Clock) : Nat → Clock
  | 0 => c
  | n + 1 => c.read.2.after n

/-- Every reading of the clock succeeds. -/
def Reliable (c : Clock) : Prop :=
  ∀ n, ∃ x, (c.after n).read.1 = .ok x

/-- The next reading, or zero if there is none. -/
def reading (c : Clock) : Float :=
  match c.read.1 with
  | .ok x => x
  | .error _ => 0

/-- The clock after one reading. -/
def next (c : Clock) : Clock :=
  c.read.2

namespace Reliable

variable {c : Clock}

theorem read_eq (h : c.Reliable) : c.read = (.ok c.reading, c.next) := by
  obtain ⟨x, hx⟩ := h 0
  refine Prod.ext ?_ rfl
  have hread : c.read.1 = .ok x := hx
  rw [reading, hread]

theorem next (h : c.Reliable) : c.next.Reliable :=
  fun n => h (n + 1)

end Reliable

/-- Clocks of a class that every reading leads back into are reliable. -/
theorem reliable_of_closed {P : Clock → Prop}
    (hread : ∀ c, P c → (∃ x, c.read.1 = .ok x) ∧ P c.read.2) {c : Clock} (h : P c) :
    c.Reliable := by
  intro n
  induction n generalizing c with
  | zero => exact (hread c h).1
  | succ n ih => exact ih (hread c h).2

/-- A clock of doubles is reliable. -/
theorem reliable_steady_real (next step : Float) :
    (Clock.steady (.real next) (.real step)).Reliable := by
  refine reliable_of_closed (P := fun c => ∃ x, c = .steady (.real x) (.real step)) ?_ ⟨next, rfl⟩
  rintro _ ⟨x, rfl⟩
  exact ⟨⟨x, rfl⟩, x + step, rfl⟩

/-- A clock that stands still at zero is reliable. -/
theorem reliable_standing : (Clock.steady (.whole 0) (.whole 0)).Reliable := by
  refine reliable_of_closed (P := fun c => c = .steady (.whole 0) (.whole 0)) ?_ rfl
  rintro _ rfl
  exact ⟨⟨_, rfl⟩, rfl⟩

/-! ## Clocks that agree -/

/-- Two clocks give the same readings from now on. -/
def Agrees (c c' : Clock) : Prop :=
  ∀ n, (c.after n).read.1 = (c'.after n).read.1

theorem Agrees.refl (c : Clock) : c.Agrees c :=
  fun _ => rfl

theorem Agrees.read {c c' : Clock} (h : c.Agrees c') :
    ∃ reading k k', c.read = (reading, k) ∧ c'.read = (reading, k') ∧ k.Agrees k' :=
  ⟨c.read.1, c.read.2, c'.read.2, rfl, Prod.ext (h 0).symm rfl, fun n => h (n + 1)⟩

end Clock

end Concordance.Trace
