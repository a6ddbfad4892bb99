import Mathlib.Data.Set.Card

namespace Crowd
variable {α β : Type}

/-- The threads that stand at a place of the given kind. -/
def crowd (kind : β → Bool) (pcs : α → β) : Set α := { u | kind (pcs u) = true }

/-- Finitely many threads stand at a place of the kind, and this is their number. -/
structure Counts (kind : β → Bool) (pcs : α → β) (n : Nat) : Prop where
  finite : (crowd kind pcs).Finite
  card : (crowd kind pcs).ncard = n

variable {kind : β → Bool} {pcs : α → β} {n : Nat} {u : α} {pc : β}

theorem Counts.zero (nowhere : ∀ u, kind (pcs u) = false) : Counts kind pcs 0 := by
  have empty : crowd kind pcs = ∅ := by
    ext u
    simp [crowd, nowhere u]
  refine ⟨?_, ?_⟩
  · rw [empty]
    exact Set.finite_empty
  · rw [empty]
    exact Set.ncard_empty α

theorem Counts.pos (counts : Counts kind pcs n) (here : kind (pcs u) = true) : 0 < n := by
  rw [← counts.card]
  exact (Set.ncard_pos counts.finite).mpr ⟨u, here⟩

/-- Threads that have different things from a finite set are not more than these. -/
theorem Counts.le_card {γ : Type} (counts : Counts kind pcs n) (things : Finset γ) (thing : α → γ)
    (among : ∀ u, kind (pcs u) = true → thing u ∈ things)
    (apart : ∀ u v, kind (pcs u) = true → kind (pcs v) = true → thing u = thing v → u = v) : n ≤ things.card := by
  rw [← counts.card, ← Set.ncard_coe_finset things]
  exact Set.ncard_le_ncard_of_injOn thing among (fun u atU v atV same => apart u v atU atV same) things.finite_toSet

/-- A list of threads at places of the kind, each once, is not longer than their number. -/
theorem Counts.length_le (counts : Counts kind pcs n) {threads : List α} (once : threads.Nodup)
    (here : ∀ u ∈ threads, kind (pcs u) = true) : threads.length ≤ n := by
  classical
  rw [← counts.card, ← List.toFinset_card_of_nodup once, ← Set.ncard_coe_finset]
  refine Set.ncard_le_ncard (fun u member => ?_) counts.finite
  exact here u (List.mem_toFinset.mp member)

variable [DecidableEq α]

theorem Counts.stay (counts : Counts kind pcs n) (same : kind pc = kind (pcs u)) : Counts kind (Function.update pcs u pc) n := by
  have equal : crowd kind (Function.update pcs u pc) = crowd kind pcs := by
    ext v
    by_cases own : v = u
    · simp [crowd, own, same]
    · simp [crowd, own]
  exact ⟨equal ▸ counts.finite, equal ▸ counts.card⟩

/-- A thread comes to a place of the kind. -/
theorem Counts.enter (counts : Counts kind pcs n) (outside : kind (pcs u) = false) (inside : kind pc = true) :
    Counts kind (Function.update pcs u pc) (n + 1) := by
  have equal : crowd kind (Function.update pcs u pc) = insert u (crowd kind pcs) := by
    ext v
    by_cases own : v = u
    · simp [crowd, own, inside]
    · simp [crowd, own]
  have absent : u ∉ crowd kind pcs := by simp [crowd, outside]
  refine ⟨?_, ?_⟩
  · rw [equal]
    exact counts.finite.insert u
  · rw [equal, Set.ncard_insert_of_notMem absent counts.finite, counts.card]

/-- A thread leaves the places of the kind. -/
theorem Counts.leave (counts : Counts kind pcs n) (inside : kind (pcs u) = true) (outside : kind pc = false) :
    Counts kind (Function.update pcs u pc) (n - 1) := by
  have equal : crowd kind (Function.update pcs u pc) = crowd kind pcs \ {u} := by
    ext v
    by_cases own : v = u
    · simp [crowd, own, outside]
    · simp [crowd, own]
  have member : u ∈ crowd kind pcs := inside
  refine ⟨?_, ?_⟩
  · rw [equal]
    exact counts.finite.sdiff
  · rw [equal, Set.ncard_sdiff_singleton_of_mem member, counts.card]

end Crowd
