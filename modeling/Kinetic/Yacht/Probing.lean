import Kinetic.Yacht.Slots

namespace Kinetic
open Probe
variable {V : Type}

/-- The stopping test of `insert` and `Yacht_Get` at offset `o`: the key itself, or a free bucket. -/
def stops (buckets : Nat → Int32) (size : Nat) (key : Int32) (o : Nat) : Bool :=
  buckets (slot size key o) = key ∨ ¬ Live (buckets (slot size key o))

theorem stops_eq_false {buckets : Nat → Int32} {size : Nat} {key : Int32} {o : Nat} :
    stops buckets size key o = false ↔
      buckets (slot size key o) ≠ key ∧ Live (buckets (slot size key o)) := by
  simp only [stops, decide_eq_false_iff_not, not_or, not_not, ne_eq]

theorem not_live_iff {key : Int32} : ¬ Live key ↔ key = yachtNoKey ∨ key = yachtDeleted := by
  simp only [Live, ne_eq, not_and_or, not_not]

theorem insertLoop_eq_first (buckets : Nat → Int32) (values : Nat → V) (n : Nat) (key : Int32) (value : V) (o k : Nat) :
    insertLoop buckets values (2 ^ n - 1) key value (hash key &&& (2 ^ n - 1)) o k =
      (first (stops buckets (2 ^ n) key) o k).map fun p =>
        let i := slot (2 ^ n) key p
        if buckets i = key then ⟨buckets, Function.update values i value, some (values i)⟩
        else ⟨Function.update buckets i key, Function.update values i value, none⟩ := by
  induction k generalizing o with
  | zero => rfl
  | succ k ih =>
    simp only [insertLoop, masked_eq_slot, first, stops, not_live_iff]
    by_cases present : buckets (slot (2 ^ n) key o) = key
    · simp only [present, true_or, decide_true, if_true, Option.map_some]
    by_cases free : buckets (slot (2 ^ n) key o) = yachtNoKey ∨ buckets (slot (2 ^ n) key o) = yachtDeleted
    · simp only [present, free, or_true, decide_true, if_true, if_false, Option.map_some]
    · simpa only [present, free, or_false, decide_false, Bool.false_eq_true, if_false] using ih (o + 1)

/-- Everything `insert` can do: overwrite the value of a key it meets, take
the first free bucket of the window, or give up on a window of other keys. -/
theorem insert_cases (buckets : Nat → Int32) (values : Nat → V) (n maxFill : Nat) (key : Int32) (value : V) :
    (∃ p < maxFill, buckets (slot (2 ^ n) key p) = key ∧
      (∀ q < p, buckets (slot (2 ^ n) key q) ≠ key ∧ Live (buckets (slot (2 ^ n) key q))) ∧
      insert buckets values (2 ^ n - 1) maxFill key value =
        some ⟨buckets, Function.update values (slot (2 ^ n) key p) value, some (values (slot (2 ^ n) key p))⟩) ∨
    (∃ p < maxFill, ¬ Live (buckets (slot (2 ^ n) key p)) ∧
      (∀ q < p, buckets (slot (2 ^ n) key q) ≠ key ∧ Live (buckets (slot (2 ^ n) key q))) ∧
      insert buckets values (2 ^ n - 1) maxFill key value =
        some ⟨Function.update buckets (slot (2 ^ n) key p) key,
          Function.update values (slot (2 ^ n) key p) value, none⟩) ∨
    ((∀ q < maxFill, buckets (slot (2 ^ n) key q) ≠ key ∧ Live (buckets (slot (2 ^ n) key q))) ∧
      insert buckets values (2 ^ n - 1) maxFill key value = none) := by
  rw [insert, insertLoop_eq_first]
  cases search : first (stops buckets (2 ^ n) key) 0 maxFill with
  | none =>
    have quiet := first_eq_none.mp search
    exact Or.inr (Or.inr ⟨fun q below => stops_eq_false.mp (quiet q q.zero_le (by omega)), rfl⟩)
  | some p =>
    obtain ⟨_, within, stop, quiet⟩ := first_eq_some.mp search
    have before (q : Nat) (below : q < p) := stops_eq_false.mp (quiet q q.zero_le below)
    by_cases present : buckets (slot (2 ^ n) key p) = key
    · exact Or.inl ⟨p, by omega, present, before, by simp only [Option.map_some, present, if_true]⟩
    · refine Or.inr (Or.inl ⟨p, by omega, ?_, before, ?_⟩)
      · simpa only [stops, present, false_or, decide_eq_true_eq] using stop
      · simp only [Option.map_some, present, if_false]

theorem yachtGetLoop_eq_first {y : Yacht V} {n : Nat} (mask : y.mask = 2 ^ n - 1) (key : Int32) (o k : Nat) :
    yachtGetLoop y key (hash key &&& y.mask) o k =
      (first (stops y.buckets (2 ^ n) key) o k).bind fun p =>
        if y.buckets (slot (2 ^ n) key p) = key then some (y.values (slot (2 ^ n) key p)) else none := by
  induction k generalizing o with
  | zero => rfl
  | succ k ih =>
    simp only [mask] at ih ⊢
    simp only [yachtGetLoop, mask, masked_eq_slot, first, stops, not_live_iff]
    by_cases present : y.buckets (slot (2 ^ n) key o) = key
    · simp only [present, true_or, decide_true, if_true, Option.bind_some]
    by_cases free : y.buckets (slot (2 ^ n) key o) = yachtNoKey ∨ y.buckets (slot (2 ^ n) key o) = yachtDeleted
    · simp only [present, free, or_true, decide_true, if_true, if_false, Option.bind_some]
    · simpa only [present, free, or_false, decide_false, Bool.false_eq_true, if_false] using ih (o + 1)

/-- `Yacht_Remove` stops at the key or at a never used bucket, and steps over tombstones. -/
theorem yachtRemoveLoop_eq_first [Inhabited V] {y : Yacht V} {n : Nat} (mask : y.mask = 2 ^ n - 1) (key : Int32)
    (wantOld : Bool) (o k : Nat) :
    yachtRemoveLoop y key wantOld (hash key &&& y.mask) o k =
      (first (fun p => y.buckets (slot (2 ^ n) key p) = key ∨ y.buckets (slot (2 ^ n) key p) = yachtNoKey) o k).bind
        fun p =>
          let i := slot (2 ^ n) key p
          let freed := if y.buckets (slot (2 ^ n) key (p + 1)) = yachtNoKey then yachtNoKey else yachtDeleted
          let values := if wantOld then Function.update y.values i default else y.values
          if y.buckets i = key then
            some ({ y with buckets := Function.update y.buckets i freed, values := values }, y.values i)
          else none := by
  induction k generalizing o with
  | zero => rfl
  | succ k ih =>
    simp only [mask] at ih ⊢
    simp only [yachtRemoveLoop, mask, masked_eq_slot, masked_next, first]
    by_cases present : y.buckets (slot (2 ^ n) key o) = key
    · simp only [present, true_or, decide_true, if_true, Option.bind_some]
    by_cases empty : y.buckets (slot (2 ^ n) key o) = yachtNoKey
    · simp only [empty, or_true, decide_true, if_true, Option.bind_some]
    · simpa only [present, empty, or_false, decide_false, Bool.false_eq_true, if_false] using ih (o + 1)

end Kinetic
