import Mathlib.Data.List.Nodup
import Mathlib.Logic.Function.Basic
import Mathlib.Tactic.Common

namespace Chain
variable {α : Type}

/-- The cells of a list in memory, from the pointer to the first one on, in their order. -/
def Linked (next : α → Option α) : Option α → List α → Prop
  | first, [] => first = none
  | first, x :: rest => first = some x ∧ Linked next (next x) rest

/-- The cell is met when the pointers are followed. The list may be circular. -/
inductive Meets (next : α → Option α) : Option α → α → Prop
  | here (x : α) : Meets next (some x) x
  | later (x y : α) : Meets next (next x) y → Meets next (some x) y

variable {next : α → Option α} {first : Option α} {cells : List α} {x y : α}

theorem not_meets_none : ¬ Meets next none x := by
  intro met
  cases met

/-- What is met on a list are its cells. -/
theorem Linked.meets_iff (linked : Linked next first cells) : Meets next first x ↔ x ∈ cells := by
  induction cells generalizing first with
  | nil =>
    cases linked
    simp [not_meets_none]
  | cons y rest ih =>
    obtain ⟨rfl, linked⟩ := linked
    rw [List.mem_cons, ← ih linked]
    constructor
    · intro met
      cases met with
      | here => exact .inl rfl
      | later _ _ met => exact .inr met
    · rintro (rfl | met)
      · exact .here _
      · exact .later _ _ met

/-- The pointer of a cell that is not on the list may be written. -/
theorem Linked.update [DecidableEq α] (linked : Linked next first cells) (absent : x ∉ cells) (value : Option α) :
    Linked (Function.update next x value) first cells := by
  induction cells generalizing first with
  | nil => exact linked
  | cons y rest ih =>
    obtain ⟨atFirst, linked⟩ := linked
    rw [List.mem_cons, not_or] at absent
    refine ⟨atFirst, ?_⟩
    rw [Function.update_of_ne (Ne.symm absent.1)]
    exact ih linked absent.2

/-- From a cell on, a list is a list. -/
theorem Linked.suffix {front rest : List α} (linked : Linked next first (front ++ x :: rest)) :
    Linked next (some x) (x :: rest) := by
  induction front generalizing first with
  | nil => exact ⟨rfl, linked.2⟩
  | cons y front ih => exact ih linked.2

/-- A list entered at a cell behind its first one does not meet the first one. -/
theorem Linked.not_meets_first (linked : Linked next (some x) (x :: cells)) (nodup : (x :: cells).Nodup) (behind : y ∈ cells) :
    ¬ Meets next (some y) x := by
  obtain ⟨front, rest, rfl⟩ := List.append_of_mem behind
  have suffix : Linked next (some y) (y :: rest) := linked.2.suffix
  rw [suffix.meets_iff]
  intro member
  exact (List.nodup_cons.mp nodup).1 (List.mem_append_right front member)

end Chain
