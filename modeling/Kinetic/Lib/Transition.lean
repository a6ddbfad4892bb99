import Mathlib.Tactic.Common

namespace Transition
variable {σ ℓ : Type}

/-- The states met by runs from `start` whose every step meets `ok` in the state it is taken from. -/
inductive Reach (step : σ → ℓ → Option σ) (start : σ) (ok : σ → ℓ → Prop) : σ → Prop
  | start : Reach step start ok start
  | next {s t : σ} {l : ℓ} : Reach step start ok s → ok s l → step s l = some t → Reach step start ok t

theorem Reach.invariant {step : σ → ℓ → Option σ} {start s : σ} {ok : σ → ℓ → Prop} {Inv : σ → Prop}
    (reach : Reach step start ok s) (initial : Inv start)
    (keep : ∀ s l t, Inv s → ok s l → step s l = some t → Inv t) : Inv s := by
  induction reach with
  | start => exact initial
  | next _ met taken ih => exact keep _ _ _ ih met taken

theorem Reach.weaken {step : σ → ℓ → Option σ} {start s : σ} {ok ok' : σ → ℓ → Prop}
    (reach : Reach step start ok s) (imp : ∀ s l, ok s l → ok' s l) : Reach step start ok' s := by
  induction reach with
  | start => exact .start
  | next _ met taken ih => exact .next ih (imp _ _ met) taken

/-- A condition may be replaced by another one that follows from it in the states that are reached. -/
theorem Reach.refine {step : σ → ℓ → Option σ} {start s : σ} {ok ok' : σ → ℓ → Prop} (reach : Reach step start ok s)
    (imp : ∀ s l, Reach step start ok' s → ok s l → ok' s l) : Reach step start ok' s := by
  induction reach with
  | start => exact .start
  | next _ met taken ih => exact .next ih (imp _ _ ih met) taken

theorem Reach.trans {step : σ → ℓ → Option σ} {start s t : σ} {ok : σ → ℓ → Prop} (first : Reach step start ok s)
    (second : Reach step s ok t) : Reach step start ok t := by
  induction second with
  | start => exact first
  | next _ met taken ih => exact .next ih met taken

/-- Execution of a given list of steps, each of which must be enabled and meet the test `ok`. -/
def exec (step : σ → ℓ → Option σ) (ok : σ → ℓ → Bool) : σ → List ℓ → Option σ
  | s, [] => some s
  | s, l :: rest => if ok s l then (step s l).bind fun t => exec step ok t rest else none

theorem Reach.exec {step : σ → ℓ → Option σ} {start s t : σ} {ok : σ → ℓ → Prop} {test : σ → ℓ → Bool}
    (sound : ∀ s l, test s l = true → ok s l) (reach : Reach step start ok s) {labels : List ℓ}
    (run : Transition.exec step test s labels = some t) : Reach step start ok t := by
  induction labels generalizing s with
  | nil => cases Option.some.inj run; exact reach
  | cons l rest ih =>
    unfold Transition.exec at run
    split at run
    · rename_i met
      obtain ⟨next, taken, later⟩ := Option.bind_eq_some_iff.mp run
      exact ih (.next reach (sound _ _ met) taken) later
    · simp at run

/-- What is seen in the last state of an execution is seen in a state that is reached. -/
theorem exists_reach_of_exec {α : Type} {step : σ → ℓ → Option σ} {start : σ} {ok : σ → ℓ → Prop}
    [∀ s l, Decidable (ok s l)] {labels : List ℓ} {view : σ → α} {seen : α}
    (run : (exec step (fun s l => decide (ok s l)) start labels).map view = some seen) :
    ∃ s, Reach step start ok s ∧ view s = seen := by
  obtain ⟨s, executed, atEnd⟩ := Option.map_eq_some_iff.mp run
  exact ⟨s, Reach.start.exec (fun _ _ => of_decide_eq_true) executed, atEnd⟩

end Transition
