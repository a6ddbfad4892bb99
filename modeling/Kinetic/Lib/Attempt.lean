import Mathlib.Tactic.Common

/-- A computation that asks for resources one after the other, gives up when one of them is refused, and keeps notes of
what it does. -/
inductive Attempt (ε ω α : Type)
  | done (value : α)
  | fail (error : ε)
  | request (rest : Attempt ε ω α)
  | note (entry : ω) (rest : Attempt ε ω α)

namespace Attempt
variable {ε ω α β : Type}

/-- Sequencing: the second computation goes on from the value of the first. -/
def andThen : Attempt ε ω α → (α → Attempt ε ω β) → Attempt ε ω β
  | done value, next => next value
  | fail error, _ => fail error
  | request rest, next => request (rest.andThen next)
  | note entry rest, next => note entry (rest.andThen next)

instance monadAttempt : Monad (Attempt ε ω) where
  pure := done
  bind := andThen

/-- The result if every request is granted. -/
def granted : Attempt ε ω α → Except ε α
  | done value => .ok value
  | fail error => .error error
  | request rest => rest.granted
  | note _ rest => rest.granted

/-- The notes it keeps if every request is granted. -/
def notes : Attempt ε ω α → List ω
  | done _ => []
  | fail _ => []
  | request rest => rest.notes
  | note entry rest => entry :: rest.notes

/-- The result of a run, its notes, and the number of requests it made. -/
structure Outcome (ε ω α : Type) where
  result : Except ε α
  notes : List ω
  asked : Nat

/-- The run in which the `j`-th request is granted if `grants j` says so; a refused one ends it with the given error. -/
def run (refusal : ε) : Attempt ε ω α → (Nat → Bool) → Outcome ε ω α
  | done value, _ => ⟨.ok value, [], 0⟩
  | fail error, _ => ⟨.error error, [], 0⟩
  | request rest, grants =>
    if grants 0 then
      let later := rest.run refusal fun j => grants (j + 1)
      { later with asked := later.asked + 1 }
    else ⟨.error refusal, [], 1⟩
  | note entry rest, grants =>
    let later := rest.run refusal grants
    { later with notes := entry :: later.notes }

section Granted
variable (x : Attempt ε ω α) (next : α → Attempt ε ω β)

@[simp] theorem granted_pure (value : α) : (pure value : Attempt ε ω α).granted = .ok value := rfl

@[simp] theorem notes_pure (value : α) : (pure value : Attempt ε ω α).notes = [] := rfl

theorem granted_bind : (x >>= next).granted = x.granted >>= fun value => (next value).granted := by
  induction x with
  | done value => rfl
  | fail error => rfl
  | request rest ih => exact ih
  | note entry rest ih => exact ih

theorem notes_bind : (x >>= next).notes = x.notes ++ (match x.granted with
    | .ok value => (next value).notes
    | .error _ => []) := by
  induction x with
  | done value => rfl
  | fail error => rfl
  | request rest ih => exact ih
  | note entry rest ih => exact congrArg (List.cons entry) ih

variable {x next}

theorem granted_bind_of_ok {value : α} (first : x.granted = .ok value) :
    (x >>= next).granted = (next value).granted := by
  rw [granted_bind, first]
  rfl

theorem granted_bind_of_error {error : ε} (first : x.granted = .error error) : (x >>= next).granted = .error error := by
  rw [granted_bind, first]
  rfl

theorem notes_bind_of_ok {value : α} (first : x.granted = .ok value) :
    (x >>= next).notes = x.notes ++ (next value).notes := by
  rw [notes_bind, first]

theorem notes_bind_of_error {error : ε} (first : x.granted = .error error) : (x >>= next).notes = x.notes := by
  rw [notes_bind, first, List.append_nil]

end Granted

/-- A run is the one in which every request is granted, or one of its requests is refused: then it ends with the refusal,
and has made some of the notes. -/
theorem run_cases (refusal : ε) (x : Attempt ε ω α) (grants : Nat → Bool) :
    ((∀ j < (x.run refusal grants).asked, grants j = true) ∧ (x.run refusal grants).result = x.granted ∧
      (x.run refusal grants).notes = x.notes) ∨
    (∃ j < (x.run refusal grants).asked, grants j = false) ∧ (x.run refusal grants).result = .error refusal ∧
      (x.run refusal grants).notes <+: x.notes := by
  induction x generalizing grants with
  | done value => exact .inl ⟨fun j below => absurd below j.not_lt_zero, rfl, rfl⟩
  | fail error => exact .inl ⟨fun j below => absurd below j.not_lt_zero, rfl, rfl⟩
  | request rest ih =>
    cases first : grants 0 with
    | false =>
      have ended : run refusal (request rest) grants = ⟨.error refusal, [], 1⟩ := by
        simp only [run, first, Bool.false_eq_true, if_false]
      rw [ended]
      exact .inr ⟨⟨0, Nat.one_pos, first⟩, rfl, List.nil_prefix⟩
    | true =>
      simp only [run, first, if_true]
      rcases ih fun j => grants (j + 1) with ⟨all, result, notes⟩ | ⟨⟨j, below, refused⟩, result, notes⟩
      · refine .inl ⟨fun j below => ?_, result, notes⟩
        cases j with
        | zero => exact first
        | succ j => exact all j (Nat.lt_of_succ_lt_succ below)
      · exact .inr ⟨⟨j + 1, Nat.succ_lt_succ below, refused⟩, result, notes⟩
  | note entry rest ih =>
    simp only [run]
    rcases ih grants with ⟨all, result, notes⟩ | ⟨refused, result, notes⟩
    · exact .inl ⟨all, result, congrArg (List.cons entry) notes⟩
    · exact .inr ⟨refused, result, (List.prefix_cons_inj entry).mpr notes⟩

theorem run_all (refusal : ε) (x : Attempt ε ω α) :
    (x.run refusal fun _ => true).result = x.granted ∧ (x.run refusal fun _ => true).notes = x.notes := by
  rcases run_cases refusal x fun _ => true with ⟨_, result, notes⟩ | ⟨⟨_, _, refused⟩, _⟩
  · exact ⟨result, notes⟩
  · cases refused

/-- What a run returns is what it returns if every request is granted, unless it ends with the refusal. -/
theorem granted_of_run_ok {refusal : ε} {x : Attempt ε ω α} {grants : Nat → Bool} {value : α}
    (returned : (x.run refusal grants).result = .ok value) :
    x.granted = .ok value ∧ ∀ j < (x.run refusal grants).asked, grants j = true := by
  rcases run_cases refusal x grants with ⟨all, result, _⟩ | ⟨_, result, _⟩
  · exact ⟨result.symm.trans returned, all⟩
  · rw [result] at returned
    cases returned

theorem run_notes_initial (refusal : ε) (x : Attempt ε ω α) (grants : Nat → Bool) : (x.run refusal grants).notes <+: x.notes := by
  rcases run_cases refusal x grants with ⟨_, _, notes⟩ | ⟨_, _, notes⟩
  · exact notes ▸ List.prefix_rfl
  · exact notes

end Attempt
