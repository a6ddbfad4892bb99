import Kinetic.Lib.Ownership
import Mathlib.Data.Finset.Card

namespace Ownership
variable {P T : Type}

/-- The tokens of places where some of them have a unit. -/
def tokens (contents : P → Option (T × Bool)) (p : P) : Option T := (contents p).map Prod.fst

/-- The tokens are apart, and the books have those with a unit. -/
structure Booked (contents : P → Option (T × Bool)) (live : T → Prop) (books : Finset T) : Prop where
  sound : Sound (tokens contents) live
  booked : ∀ x, x ∈ books ↔ ∃ p, contents p = some (x, true)

variable {contents contents' : P → Option (T × Bool)} {live live' : T → Prop} {books : Finset T} {p q : P} {x y : T} {u v : Bool}

theorem tokens_of_eq (held : contents p = some (x, u)) : tokens contents p = some x := by rw [tokens, held, Option.map_some]

theorem tokens_of_none (empty : contents p = none) : tokens contents p = none := by rw [tokens, empty, Option.map_none]

theorem Booked.exclusive (inv : Booked contents live books) (first : contents p = some (x, u))
    (second : contents q = some (x, v)) : p = q :=
  inv.sound.exclusive p q x (tokens_of_eq first) (tokens_of_eq second)

/-- A change of one place concerns a token with a unit only if it is there before or after. -/
theorem exists_unit_iff (others : ∀ r, r ≠ p → contents' r = contents r)
    (here : contents' p = some (y, true) ↔ contents p = some (y, true)) :
    (∃ r, contents' r = some (y, true)) ↔ ∃ r, contents r = some (y, true) := by
  refine exists_congr fun r => ?_
  by_cases same : r = p
  · rw [same]
    exact here
  · rw [others r same]

theorem Booked.keep (inv : Booked contents live books) (same : ∀ r, contents' r = contents r) :
    Booked contents' live books := by
  rw [funext same]
  exact inv

/-- The token of a place leaves it. -/
theorem Sound.leave (sound : Sound (tokens contents) live) (left : contents' p = none)
    (others : ∀ r, r ≠ p → contents' r = contents r) : Sound (tokens contents') live := by
  refine sound.shrink fun r y held => ?_
  by_cases same : r = p
  · rw [same, tokens_of_none left] at held
    cases held
  · rw [tokens, others r same] at held
    exact held

/-- A token without a unit leaves. -/
theorem Booked.leave (inv : Booked contents live books) (held : contents p = some (x, false)) (left : contents' p = none)
    (others : ∀ r, r ≠ p → contents' r = contents r) : Booked contents' live books := by
  refine ⟨inv.sound.leave left others, fun y => ?_⟩
  rw [inv.booked, exists_unit_iff others]
  simp [held, left]

/-- A token with a unit leaves and gives it back. -/
theorem Booked.give [DecidableEq T] (inv : Booked contents live books) (held : contents p = some (x, true))
    (left : contents' p = none) (others : ∀ r, r ≠ p → contents' r = contents r) :
    x ∈ books ∧ Booked contents' live (books.erase x) := by
  refine ⟨(inv.booked x).mpr ⟨p, held⟩, inv.sound.leave left others, fun y => ?_⟩
  rw [Finset.mem_erase, inv.booked]
  by_cases own : y = x
  · subst own
    refine ⟨fun absent => absurd rfl absent.1, ?_⟩
    rintro ⟨r, atR⟩
    have other : r ≠ p := by
      rintro rfl
      rw [left] at atR
      cases atR
    rw [others r other] at atR
    exact absurd (inv.exclusive atR held) other
  · rw [exists_unit_iff others, and_iff_right own]
    simp [held, left, Ne.symm own]

/-- A token gets its unit. -/
theorem Booked.take [DecidableEq T] (inv : Booked contents live books) (held : contents p = some (x, false))
    (taken : contents' p = some (x, true)) (others : ∀ r, r ≠ p → contents' r = contents r) :
    x ∉ books ∧ Booked contents' live (insert x books) := by
  have absent : x ∉ books := by
    intro member
    obtain ⟨r, atR⟩ := (inv.booked x).mp member
    rw [inv.exclusive atR held, held] at atR
    cases atR
  have same : tokens contents' = tokens contents := by
    funext r
    by_cases here : r = p
    · rw [here, tokens_of_eq held, tokens_of_eq taken]
    · rw [tokens, others r here, tokens]
  refine ⟨absent, by rw [same]; exact inv.sound, fun y => ?_⟩
  rw [Finset.mem_insert, inv.booked]
  by_cases own : y = x
  · rw [own]
    exact ⟨fun _ => ⟨p, taken⟩, fun _ => .inl rfl⟩
  · rw [or_iff_right own, exists_unit_iff others]
    simp [held, taken, Ne.symm own]

variable [DecidableEq P]

/-- A new token comes in. -/
theorem Booked.enter (inv : Booked contents live books) (new : ¬ live x) (empty : contents p = none)
    (entered : contents' p = some (x, false)) (others : ∀ r, r ≠ p → contents' r = contents r)
    (alive : ∀ y, live' y ↔ live y ∨ y = x) : Booked contents' live' books := by
  have apart (r : P) (other : r ≠ p) : tokens contents' r = tokens contents r := by
    rw [tokens, others r other, tokens]
  refine ⟨inv.sound.change (.put p x new (tokens_of_none empty) (tokens_of_eq entered) apart alive), fun y => ?_⟩
  rw [inv.booked, exists_unit_iff others]
  simp [empty, entered]

/-- A token goes from one place to another. -/
theorem Booked.move (inv : Booked contents live books) (held : contents p = some (x, u)) (empty : contents q = none)
    (left : contents' p = none) (arrived : contents' q = some (x, u))
    (others : ∀ r, r ≠ p → r ≠ q → contents' r = contents r) : Booked contents' live books := by
  have apart (r : P) (notP : r ≠ p) (notQ : r ≠ q) : tokens contents' r = tokens contents r := by
    rw [tokens, others r notP notQ, tokens]
  refine ⟨inv.sound.change (.move p q x (tokens_of_eq held) (tokens_of_none empty) (tokens_of_none left)
    (tokens_of_eq arrived) apart fun _ => Iff.rfl), fun y => ?_⟩
  rw [inv.booked]
  constructor
  · rintro ⟨r, atR⟩
    by_cases here : r = p
    · refine ⟨q, ?_⟩
      rw [arrived, ← held, ← here, atR]
    · have notQ : r ≠ q := by
        rintro rfl
        rw [empty] at atR
        cases atR
      exact ⟨r, (others r here notQ).trans atR⟩
  · rintro ⟨r, atR⟩
    by_cases here : r = q
    · refine ⟨p, ?_⟩
      rw [held, ← arrived, ← here, atR]
    · have notP : r ≠ p := by
        rintro rfl
        rw [left] at atR
        cases atR
      exact ⟨r, (others r notP here).symm.trans atR⟩

end Ownership
