import Kinetic.Lib.Transition

namespace Transition
variable {σ ℓ : Type}

/-- The steps of a run that lower a measure of the state are bounded by its first value and by the steps that raise it. -/
theorem exec_bounded {step : σ → ℓ → Option σ} {ok : σ → ℓ → Bool} {Inv : σ → Prop} (measure : σ → Nat)
    (work gain : ℓ → Bool) (most : Nat) (keep : ∀ s l t, Inv s → step s l = some t → Inv t)
    (pays : ∀ s l t, Inv s → step s l = some t → measure t + (work l).toNat ≤ measure s + most * (gain l).toNat) {s t : σ}
    {labels : List ℓ} (inv : Inv s) (run : exec step ok s labels = some t) :
    measure t + labels.countP work ≤ measure s + most * labels.countP gain := by
  induction labels generalizing s with
  | nil =>
    cases Option.some.inj run
    exact Nat.le_refl _
  | cons l rest ih =>
    unfold exec at run
    split at run
    · obtain ⟨next, taken, later⟩ := Option.bind_eq_some_iff.mp run
      have first := pays s l next inv taken
      have others := ih (keep s l next inv taken) later
      have worked : (l :: rest).countP work = rest.countP work + (work l).toNat := by cases h : work l <;> simp [h]
      have gained : (l :: rest).countP gain = rest.countP gain + (gain l).toNat := by cases h : gain l <;> simp [h]
      rw [worked, gained, Nat.mul_add]
      omega
    · cases run

end Transition
