import Kinetic.Lib.Transition

namespace Transition
variable {σ ℓ γ : Type}

/-- A machine with a record of what has happened beside it. The record is written from the state a step is taken in, and
no step reads it. -/
def watch (step : σ → ℓ → Option σ) (note : σ → ℓ → γ → γ) (s : σ × γ) (l : ℓ) : Option (σ × γ) :=
  (step s.1 l).map fun t => (t, note s.1 l s.2)

variable {step : σ → ℓ → Option σ} {note : σ → ℓ → γ → γ} {start : σ} {empty : γ}

theorem watch_eq_some {s : σ × γ} {l : ℓ} {t : σ × γ} :
    watch step note s l = some t ↔ step s.1 l = some t.1 ∧ t.2 = note s.1 l s.2 := by
  constructor
  · intro taken
    obtain ⟨next, stepped, same⟩ := Option.map_eq_some_iff.mp taken
    cases same
    exact ⟨stepped, rfl⟩
  · rintro ⟨stepped, noted⟩
    rw [watch, stepped, Option.map_some, ← noted]

/-- A run of the watched machine is a run of the machine. -/
theorem Reach.unwatch (ok : σ → ℓ → Prop) {s : σ × γ}
    (reach : Reach (watch step note) (start, empty) (fun s l => ok s.1 l) s) : Reach step start ok s.1 := by
  induction reach with
  | start => exact .start
  | next _ met taken ih => exact .next ih met (watch_eq_some.mp taken).1

/-- Every run can be watched. -/
theorem Reach.watch {ok : σ → ℓ → Prop} {s : σ} (reach : Reach step start ok s) (note : σ → ℓ → γ → γ) (empty : γ) :
    ∃ g, Reach (watch step note) (start, empty) (fun s l => ok s.1 l) (s, g) := by
  induction reach with
  | start => exact ⟨empty, .start⟩
  | @next s t l _ met taken ih =>
    obtain ⟨g, watched⟩ := ih
    exact ⟨note s l g, .next watched met (watch_eq_some.mpr ⟨taken, rfl⟩)⟩

/-- What each step keeps holds of every watched run. -/
theorem Reach.watched_invariant {s : σ} {g : γ} {Inv : σ → γ → Prop} (ok : σ → ℓ → Prop)
    (reach : Reach (Transition.watch step note) (start, empty) (fun s l => ok s.1 l) (s, g)) (initial : Inv start empty)
    (keep : ∀ s g l t, Reach step start ok s → Inv s g → ok s l → step s l = some t → Inv t (note s l g)) : Inv s g := by
  have inv : ∀ s : σ × γ, Reach (Transition.watch step note) (start, empty) (fun s l => ok s.1 l) s → Inv s.1 s.2 := by
    intro s reach
    induction reach with
    | start => exact initial
    | next before met taken ih =>
      obtain ⟨stepped, noted⟩ := watch_eq_some.mp taken
      rw [noted]
      exact keep _ _ _ _ (before.unwatch ok) ih met stepped
  exact inv (s, g) reach

end Transition
