import Mathlib.Data.Nat.Find
import Mathlib.Data.List.Range
import Mathlib.Data.Finset.Card

namespace FreeCells
open Function (update)
variable {capacity inUse top : Nat} {used : Nat → Prop} {free : List Nat}

/-- A pool of `capacity` cells: the list of those that are free, the number of those in use, and a mark above which no
cell is in use. The mark is as low as it can be. -/
structure Valid (capacity : Nat) (used : Nat → Prop) (free : List Nat) (inUse top : Nat) : Prop where
  nodup : free.Nodup
  free_iff : ∀ i, i ∈ free ↔ i < capacity ∧ ¬ used i
  used_lt : ∀ i, used i → i < capacity
  count : inUse + free.length = capacity
  covered : ∀ i, used i → i ≤ top
  tight : top = 0 ∨ used top

theorem Valid.initial (capacity : Nat) : Valid capacity (fun _ => False) (List.range capacity) 0 0 where
  nodup := List.nodup_range
  free_iff i := by simp
  used_lt i taken := taken.elim
  count := by simp
  covered i taken := taken.elim
  tight := .inl rfl

theorem Valid.top_lt (valid : Valid capacity used free inUse top) (room : 0 < capacity) : top < capacity := by
  rcases valid.tight with zero | taken
  · omega
  · exact valid.used_lt top taken

theorem Valid.congr {used' : Nat → Prop} (valid : Valid capacity used free inUse top) (same : ∀ i, used' i ↔ used i) :
    Valid capacity used' free inUse top := by
  have equal : used' = used := funext fun i => propext (same i)
  rw [equal]
  exact valid

/-- A pool with a cell in use counts it. -/
theorem Valid.inUse_pos (valid : Valid capacity used free inUse top) {i : Nat} (taken : used i) : 0 < inUse := by
  have notFree : i ∉ free := fun member => ((valid.free_iff i).mp member).2 taken
  have within : free.toFinset ⊆ (Finset.range capacity).erase i := by
    intro j member
    have here := List.mem_toFinset.mp member
    have distinct : j ≠ i := by
      rintro rfl
      exact notFree here
    have low := ((valid.free_iff j).mp here).1
    simp [distinct, low]
  have fewer := Finset.card_le_card within
  rw [List.toFinset_card_of_nodup valid.nodup, Finset.card_erase_of_mem (by simpa using valid.used_lt i taken),
    Finset.card_range] at fewer
  have low := valid.used_lt i taken
  have count := valid.count
  omega

/-- Taking the first free cell. -/
theorem Valid.take {used' : Nat → Prop} {head : Nat} {next : List Nat}
    (valid : Valid capacity used (head :: next) inUse top) (grown : ∀ i, used' i ↔ used i ∨ i = head) :
    Valid capacity used' next (inUse + 1) (if top < head then head else top) where
  nodup := (List.nodup_cons.mp valid.nodup).2
  free_iff i := by
    have fresh := (List.nodup_cons.mp valid.nodup).1
    have before := valid.free_iff i
    rw [List.mem_cons] at before
    rw [grown]
    constructor
    · intro member
      have distinct : i ≠ head := by
        rintro rfl
        exact fresh member
      have old := before.mp (.inr member)
      exact ⟨old.1, fun either => either.elim old.2 distinct⟩
    · rintro ⟨low, unused⟩
      rcases before.mpr ⟨low, fun taken => unused (.inl taken)⟩ with same | member
      · exact absurd (.inr same) unused
      · exact member
  used_lt i taken := by
    rcases (grown i).mp taken with old | rfl
    · exact valid.used_lt i old
    · exact ((valid.free_iff i).mp (by simp)).1
  count := by
    have count := valid.count
    simp only [List.length_cons] at count
    omega
  covered i taken := by
    rcases (grown i).mp taken with old | rfl
    · have below := valid.covered i old
      split <;> omega
    · split <;> omega
  tight := by
    split
    · exact .inr ((grown head).mpr (.inr rfl))
    · rcases valid.tight with zero | taken
      · exact .inl zero
      · exact .inr ((grown top).mpr (.inl taken))

/-- Giving a cell back. If it was at the mark, the mark goes down to the next cell in use. -/
theorem Valid.giveBack {used' : Nat → Prop} [DecidablePred used'] {i : Nat} (valid : Valid capacity used free inUse top)
    (taken : used i) (shrunk : ∀ j, used' j ↔ used j ∧ j ≠ i) :
    Valid capacity used' (i :: free) (inUse - 1) (if top = i then Nat.findGreatest used' i else top) where
  nodup := List.nodup_cons.mpr ⟨fun member => ((valid.free_iff i).mp member).2 taken, valid.nodup⟩
  free_iff j := by
    have before := valid.free_iff j
    have low := valid.used_lt i taken
    rw [List.mem_cons, before, shrunk]
    constructor
    · rintro (rfl | ⟨below, unused⟩)
      · exact ⟨low, fun still => still.2 rfl⟩
      · exact ⟨below, fun still => unused still.1⟩
    · rintro ⟨below, unused⟩
      by_cases here : j = i
      · exact .inl here
      · exact .inr ⟨below, fun still => unused ⟨still, here⟩⟩
  used_lt j still := valid.used_lt j ((shrunk j).mp still).1
  count := by
    have positive := valid.inUse_pos taken
    have count := valid.count
    simp only [List.length_cons]
    omega
  covered j still := by
    have below := valid.covered j ((shrunk j).mp still).1
    split
    · rename_i atTop
      exact Nat.le_findGreatest (by omega) still
    · exact below
  tight := by
    split
    · rcases Nat.eq_zero_or_pos (Nat.findGreatest used' i) with zero | positive
      · exact .inl zero
      · exact .inr (Nat.findGreatest_of_ne_zero rfl (by omega))
    · rename_i notTop
      rcases valid.tight with zero | still
      · exact .inl zero
      · exact .inr ((shrunk top).mpr ⟨still, notTop⟩)

end FreeCells
