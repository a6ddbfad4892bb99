import Mathlib.Tactic.Common

namespace Custody
variable {P T : Type}

/-- Every live token is in the custody of one place. A place may have any number of tokens. -/
structure Kept (contents : P → T → Prop) (live : T → Prop) : Prop where
  exclusive : ∀ p q x, contents p x → contents q x → p = q
  alive : ∀ p x, contents p x → live x
  complete : ∀ x, live x → ∃ p, contents p x

/-- The token goes from one place to another, and every other token stays where it is. -/
structure Moved (contents contents' : P → T → Prop) (a b : P) (x : T) : Prop where
  held : contents a x
  left : ∀ y, contents' a y ↔ contents a y ∧ y ≠ x
  arrived : ∀ y, contents' b y ↔ contents b y ∨ y = x
  others : ∀ p, p ≠ a → p ≠ b → ∀ y, contents' p y ↔ contents p y

variable {contents contents' : P → T → Prop} {live : T → Prop} {a b : P} {x : T}

theorem Kept.same (kept : Kept contents live) (same : ∀ p y, contents' p y ↔ contents p y) : Kept contents' live := by
  have equal : contents' = contents := by
    funext p y
    exact propext (same p y)
  rw [equal]
  exact kept

/-- Where a token other than the moved one is. -/
theorem Moved.other (moved : Moved contents contents' a b x) {p : P} {y : T} (other : y ≠ x) : contents' p y ↔ contents p y := by
  by_cases atA : p = a
  · rw [atA, moved.left, and_iff_left other]
  · by_cases atB : p = b
    · rw [atB, moved.arrived, or_iff_left other]
    · exact moved.others p atA atB y

/-- The moved token is where it has come to, and nowhere else. -/
theorem Moved.own (moved : Moved contents contents' a b x) (kept : Kept contents live) {p : P} : contents' p x ↔ p = b := by
  constructor
  · intro here
    by_contra other
    by_cases atA : p = a
    · rw [atA, moved.left] at here
      exact here.2 rfl
    · rw [moved.others p atA other] at here
      exact atA (kept.exclusive p a x here moved.held)
  · rintro rfl
    exact (moved.arrived x).mpr (.inr rfl)

theorem Kept.move (kept : Kept contents live) (moved : Moved contents contents' a b x) : Kept contents' live := by
  refine ⟨?_, ?_, ?_⟩
  · intro p q y atP atQ
    by_cases same : y = x
    · rw [same, moved.own kept] at atP atQ
      rw [atP, atQ]
    · rw [moved.other same] at atP atQ
      exact kept.exclusive p q y atP atQ
  · intro p y atP
    by_cases same : y = x
    · rw [same]
      exact kept.alive a x moved.held
    · rw [moved.other same] at atP
      exact kept.alive p y atP
  · intro y alive
    by_cases same : y = x
    · exact ⟨b, by rw [same, moved.own kept]⟩
    · obtain ⟨p, atP⟩ := kept.complete y alive
      exact ⟨p, (moved.other same).mpr atP⟩

end Custody
