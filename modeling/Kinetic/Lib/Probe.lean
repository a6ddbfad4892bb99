import Mathlib.Tactic.Common
import Mathlib.Data.Nat.ModEq

namespace Probe

/-- The offset at which a bounded scan `o, o + 1, …` of `n` places stops. -/
def first (stop : Nat → Bool) : Nat → Nat → Option Nat
  | _, 0 => none
  | o, n + 1 => if stop o then some o else first stop (o + 1) n

theorem first_eq_some {stop : Nat → Bool} {o n j : Nat} :
    first stop o n = some j ↔ o ≤ j ∧ j < o + n ∧ stop j ∧ ∀ k, o ≤ k → k < j → stop k = false := by
  induction n generalizing o with
  | zero => simp only [first]; constructor <;> intro h <;> [cases h; omega]
  | succ n ih =>
    by_cases here : stop o
    · simp only [first, here, if_true, Option.some.injEq]
      constructor
      · rintro rfl
        exact ⟨le_rfl, by omega, here, fun k lower upper => by omega⟩
      · rintro ⟨lower, _, _, before⟩
        by_contra other
        have := before o le_rfl (by omega)
        simp [here] at this
    · simp only [first, here, Bool.false_eq_true, if_false, ih]
      constructor
      · rintro ⟨lower, upper, found, before⟩
        refine ⟨by omega, by omega, found, fun k start below => ?_⟩
        rcases Nat.eq_or_lt_of_le start with rfl | later
        · simpa using here
        · exact before k later below
      · rintro ⟨lower, upper, found, before⟩
        have different : o ≠ j := by rintro rfl; exact here found
        exact ⟨by omega, by omega, found, fun k start below => before k (by omega) below⟩

theorem first_eq_none {stop : Nat → Bool} {o n : Nat} :
    first stop o n = none ↔ ∀ k, o ≤ k → k < o + n → stop k = false := by
  constructor
  · intro missing k
    induction n generalizing o with
    | zero => intro _ _; omega
    | succ n ih =>
      intro lower upper
      by_cases here : stop o
      · simp [first, here] at missing
      · simp only [first, here, Bool.false_eq_true, if_false] at missing
        rcases Nat.eq_or_lt_of_le lower with rfl | later
        · simpa using here
        · exact ih missing later (by omega)
  · intro quiet
    cases found : first stop o n with
    | none => rfl
    | some j =>
      obtain ⟨lower, upper, stops, _⟩ := first_eq_some.mp found
      simp [quiet j lower upper] at stops

/-- The place that lies `o` steps after `home` on a ring of `size` places. -/
def ring (size home o : Nat) : Nat := (home + o) % size

theorem ring_lt {size : Nat} (positive : 0 < size) (home o : Nat) : ring size home o < size :=
  Nat.mod_lt _ positive

theorem ring_succ (size home o : Nat) : ring size home (o + 1) = (ring size home o + 1) % size := by
  simp only [ring, Nat.mod_add_mod, Nat.add_assoc]

theorem ring_injective {size home o p : Nat} (before : o < size) (within : p < size)
    (same : ring size home o = ring size home p) : o = p := by
  have congruent : o ≡ p [MOD size] := Nat.ModEq.add_left_cancel' home same
  exact Nat.ModEq.eq_of_lt_of_lt congruent before within

/-- Every place of the ring is met within one full turn. -/
theorem ring_surjective {size i : Nat} (home : Nat) (within : i < size) :
    ∃ o, o < size ∧ ring size home o = i := by
  have reduced : home % size < size := Nat.mod_lt _ (by omega)
  by_cases above : home % size ≤ i
  · refine ⟨i - home % size, by omega, ?_⟩
    rw [ring, ← Nat.mod_add_mod, show home % size + (i - home % size) = i by omega, Nat.mod_eq_of_lt within]
  · refine ⟨i + size - home % size, by omega, ?_⟩
    rw [ring, ← Nat.mod_add_mod, show home % size + (i + size - home % size) = i + size by omega,
      Nat.add_mod_right, Nat.mod_eq_of_lt within]

end Probe
