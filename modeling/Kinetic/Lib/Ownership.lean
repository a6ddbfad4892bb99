import Mathlib.Logic.Function.Basic
import Mathlib.Logic.ExistsUnique
import Mathlib.Tactic.Common

namespace Ownership
variable {P T : Type} [DecidableEq P]

/-- No token is in two places, and a token in a place is live. -/
structure Sound (holding : P → Option T) (live : T → Prop) : Prop where
  exclusive : ∀ p q b, holding p = some b → holding q = some b → p = q
  alive : ∀ p b, holding p = some b → live b

/-- Every live token is in some place. -/
def Complete (holding : P → Option T) (live : T → Prop) : Prop := ∀ b, live b → ∃ p, holding p = some b

/-- A step that loses no token: it leaves every token where it is, moves one, puts a new one
in a place, or retires one. -/
inductive Change (holding : P → Option T) (live : T → Prop) (holding' : P → Option T) (live' : T → Prop) : Prop
  | keep : (∀ r, holding' r = holding r) → (∀ x, live' x ↔ live x) → Change holding live holding' live'
  | move (p q : P) (b : T) : holding p = some b → holding q = none → holding' p = none → holding' q = some b →
      (∀ r, r ≠ p → r ≠ q → holding' r = holding r) → (∀ x, live' x ↔ live x) → Change holding live holding' live'
  | put (p : P) (b : T) : ¬ live b → holding p = none → holding' p = some b → (∀ r, r ≠ p → holding' r = holding r) →
      (∀ x, live' x ↔ live x ∨ x = b) → Change holding live holding' live'
  | retire (p : P) (b : T) : holding p = some b → holding' p = none → (∀ r, r ≠ p → holding' r = holding r) →
      (∀ x, live' x ↔ live x ∧ x ≠ b) → Change holding live holding' live'

/-- A step after which the token of a place is nowhere, though still live. -/
structure Drop (holding : P → Option T) (live : T → Prop) (holding' : P → Option T) (live' : T → Prop) (p : P) (b : T) :
    Prop where
  held : holding p = some b
  gone : holding' p = none
  others : ∀ r, r ≠ p → holding' r = holding r
  same : ∀ x, live' x ↔ live x

variable {holding holding' : P → Option T} {live live' : T → Prop}

theorem eq_update {p : P} {x : Option T} (here : holding' p = x) (others : ∀ r, r ≠ p → holding' r = holding r) :
    holding' = Function.update holding p x := by
  funext r
  rw [Function.update_apply]
  split
  · rename_i same
    rw [same, here]
  · rename_i other
    exact others r other

/-- After one place is filled with a token that was nowhere else, the tokens are still apart. -/
theorem Sound.update (sound : Sound holding live) {p : P} {b : T} (absent : ∀ q, holding q = some b → q = p)
    (grown : ∀ x, live x → live' x) (alive : live' b) : Sound (Function.update holding p (some b)) live' := by
  refine ⟨?_, ?_⟩
  · intro q r x atQ atR
    rw [Function.update_apply] at atQ atR
    split at atQ <;> split at atR <;> rename_i qp rp
    · rw [qp, rp]
    · cases Option.some.inj atQ
      exact absurd (absent r atR) rp
    · cases Option.some.inj atR
      exact absurd (absent q atQ) qp
    · exact sound.exclusive q r x atQ atR
  · intro q x atQ
    rw [Function.update_apply] at atQ
    split at atQ
    · cases Option.some.inj atQ
      exact alive
    · exact grown x (sound.alive q x atQ)

/-- Emptying a place keeps the tokens apart, and its own token is then nowhere. -/
theorem Sound.clear (sound : Sound holding live) {p : P} {b : T} (held : holding p = some b) :
    Sound (Function.update holding p none) fun x => live x ∧ x ≠ b := by
  have kept : ∀ q x, Function.update holding p none q = some x → q ≠ p ∧ holding q = some x := by
    intro q x atQ
    rw [Function.update_apply] at atQ
    split at atQ
    · cases atQ
    · rename_i other
      exact ⟨other, atQ⟩
  refine ⟨fun q r x atQ atR => sound.exclusive q r x (kept q x atQ).2 (kept r x atR).2, ?_⟩
  intro q x atQ
  obtain ⟨other, atQ⟩ := kept q x atQ
  refine ⟨sound.alive q x atQ, ?_⟩
  rintro rfl
  exact other (sound.exclusive q p x atQ held)

omit [DecidableEq P] in
theorem Sound.weaken (sound : Sound holding live) (imp : ∀ x, live x → live' x) : Sound holding live' :=
  ⟨sound.exclusive, fun p b held => imp b (sound.alive p b held)⟩

omit [DecidableEq P] in
/-- Places that only lose tokens keep them apart. -/
theorem Sound.shrink (sound : Sound holding live) (kept : ∀ p b, holding' p = some b → holding p = some b) :
    Sound holding' live :=
  ⟨fun p q b first second => sound.exclusive p q b (kept p b first) (kept q b second),
    fun p b held => sound.alive p b (kept p b held)⟩

/-- Moving a token is emptying its place and then filling the other. -/
theorem eq_move {p q : P} {b : T} (left : holding' p = none) (arrived : holding' q = some b)
    (others : ∀ r, r ≠ p → r ≠ q → holding' r = holding r) :
    holding' = Function.update (Function.update holding p none) q (some b) := by
  refine eq_update arrived fun r distinct => ?_
  rw [Function.update_apply]
  split
  · rename_i same
    rw [same, left]
  · rename_i other
    exact others r other distinct

omit [DecidableEq P] in
theorem held_ne_empty {p q : P} {b : T} (held : holding p = some b) (empty : holding q = none) : p ≠ q := by
  rintro rfl
  rw [held] at empty
  cases empty

/-- Tokens stay apart in every step. -/
theorem Sound.change (sound : Sound holding live) (change : Change holding live holding' live') :
    Sound holding' live' := by
  cases change with
  | keep same alive =>
    rw [funext same]
    exact sound.weaken fun x => (alive x).mpr
  | move p q b held empty left arrived others alive =>
    have rest := sound.clear held
    have filled : Sound (Function.update (Function.update holding p none) q (some b)) live :=
      rest.update (fun r atR => absurd rfl (rest.alive r b atR).2) (fun x old => old.1) (sound.alive p b held)
    rw [eq_move left arrived others]
    exact filled.weaken fun x => (alive x).mpr
  | put p b new empty filled others alive =>
    rw [eq_update filled others]
    exact sound.update (fun q atQ => absurd (sound.alive q b atQ) new)
      (fun x old => (alive x).mpr (.inl old)) ((alive b).mpr (.inr rfl))
  | retire p b held cleared others alive =>
    rw [eq_update cleared others]
    exact (sound.clear held).weaken fun x => (alive x).mpr

theorem Sound.drop {p : P} {b : T} (sound : Sound holding live) (drop : Drop holding live holding' live' p b) :
    Sound holding' live' := by
  rw [eq_update drop.gone drop.others]
  exact (sound.clear drop.held).weaken fun x old => (drop.same x).mpr old.1

omit [DecidableEq P] in
theorem Drop.nowhere {p : P} {b : T} (drop : Drop holding live holding' live' p b) (sound : Sound holding live) (q : P) :
    holding' q ≠ some b := by
  intro held
  by_cases here : q = p
  · rw [here, drop.gone] at held
    cases held
  · rw [drop.others q here] at held
    exact here (sound.exclusive q p b held drop.held)

omit [DecidableEq P] in
/-- No token gets lost in a step that loses none. -/
theorem Complete.change (complete : Complete holding live) (change : Change holding live holding' live') :
    Complete holding' live' := by
  intro x alive
  cases change with
  | keep same live_iff =>
    rw [funext same]
    exact complete x ((live_iff x).mp alive)
  | move p q b held empty left arrived others live_iff =>
    obtain ⟨r, atR⟩ := complete x ((live_iff x).mp alive)
    by_cases here : r = p
    · refine ⟨q, ?_⟩
      rw [arrived, ← held, ← here, atR]
    · exact ⟨r, (others r here (held_ne_empty atR empty)).trans atR⟩
  | put p b new empty filled others live_iff =>
    rcases (live_iff x).mp alive with old | rfl
    · obtain ⟨r, atR⟩ := complete x old
      exact ⟨r, (others r (held_ne_empty atR empty)).trans atR⟩
    · exact ⟨p, filled⟩
  | retire p b held cleared others live_iff =>
    obtain ⟨old, distinct⟩ := (live_iff x).mp alive
    obtain ⟨r, atR⟩ := complete x old
    refine ⟨r, (others r ?_).trans atR⟩
    rintro rfl
    rw [held] at atR
    exact distinct (Option.some.inj atR).symm

omit [DecidableEq P] in
/-- A live token of a sound and complete state is in exactly one place. -/
theorem Sound.unique {b : T} (sound : Sound holding live) (complete : Complete holding live) (alive : live b) :
    ∃! p, holding p = some b := by
  obtain ⟨p, held⟩ := complete b alive
  exact ⟨p, held, fun q other => sound.exclusive q p b other held⟩

end Ownership
