import Kinetic.Yacht.Invariant
import Mathlib.Data.Finset.Card

namespace Kinetic
open Probe
variable {V : Type}

/-- No key occupies two buckets; nothing is said about where it sits. -/
def Distinct (y : Yacht V) : Prop :=
  ∀ i j, i < y.size → j < y.size → Live (y.buckets i) → y.buckets i = y.buckets j → i = j

/-- The map held by the first `i` buckets of a table, later buckets winning. -/
def contents (y : Yacht V) : Nat → Int32 → Option V
  | 0 => fun _ => none
  | i + 1 => if Live (y.buckets i) then Function.update (contents y i) (y.buckets i) (some (y.values i)) else contents y i

theorem contents_spec {y : Yacht V} (distinct : Distinct y) {i : Nat} (within : i ≤ y.size) {key : Int32}
    (live : Live key) (v : V) :
    contents y i key = some v ↔ ∃ j, j < i ∧ y.buckets j = key ∧ y.values j = v := by
  induction i with
  | zero => simp [contents]
  | succ i ih =>
    have previous := ih (by omega)
    have split : (∃ j, j < i + 1 ∧ y.buckets j = key ∧ y.values j = v) ↔
        (y.buckets i = key ∧ y.values i = v) ∨ ∃ j, j < i ∧ y.buckets j = key ∧ y.values j = v := by
      simp only [Nat.lt_succ_iff_lt_or_eq, or_and_right, exists_or, exists_eq_left, or_comm]
    rw [split]
    by_cases same : y.buckets i = key
    · have here : Live (y.buckets i) := same.symm ▸ live
      have earlier : ¬ ∃ j, j < i ∧ y.buckets j = key ∧ y.values j = v := by
        rintro ⟨j, below, atJ, _⟩
        have equal := distinct i j (by omega) (by omega) here (same.trans atJ.symm)
        omega
      simp only [contents, same, live, if_true, Function.update_self, Option.some.injEq, true_and, earlier, or_false]
    · have unchanged : contents y (i + 1) key = contents y i key := by
        simp only [contents]
        split
        · rw [Function.update_of_ne (Ne.symm same)]
        · rfl
      rw [unchanged, previous]
      simp only [same, false_and, false_or]

/-- What the loop of `grow` has built from the first `i` buckets of the old table. -/
structure Copied (y : Yacht V) (n i : Nat) (nbuckets : Nat → Int32) (nvalues : Nat → V) : Prop where
  arranged : Arranged n nbuckets
  clean : ∀ j, nbuckets j ≠ yachtDeleted
  represents : Represents n nbuckets nvalues (contents y i)
  fill : ((Finset.range (2 ^ n)).filter fun j => nbuckets j ≠ yachtNoKey).card ≤ i

theorem copied_start (y : Yacht V) (n : Nat) (v : V) : Copied y n 0 (fun _ => yachtNoKey) fun _ => v where
  arranged := arranged_empty n
  clean _ := by decide
  represents := represents_empty n v
  fill := by simp

theorem Copied.skip {y : Yacht V} {n i : Nat} {nbuckets : Nat → Int32} {nvalues : Nat → V}
    (copied : Copied y n i nbuckets nvalues) (dead : ¬ Live (y.buckets i)) :
    Copied y n (i + 1) nbuckets nvalues where
  arranged := copied.arranged
  clean := copied.clean
  represents := by simpa only [contents, dead, if_false] using copied.represents
  fill := copied.fill.trans (Nat.le_succ i)

/-- A table that is not full has a bucket that was never used, and every probe path meets it. -/
theorem exists_free {n i : Nat} {nbuckets : Nat → Int32}
    (fill : ((Finset.range (2 ^ n)).filter fun j => nbuckets j ≠ yachtNoKey).card ≤ i) (within : i < 2 ^ n) (key : Int32) :
    ∃ o, o < 2 ^ n ∧ ¬ Live (nbuckets (slot (2 ^ n) key o)) := by
  by_contra full
  have occupied : ∀ j ∈ Finset.range (2 ^ n), nbuckets j ≠ yachtNoKey := by
    intro j member
    obtain ⟨o, below, place⟩ := ring_surjective (hash key) (Finset.mem_range.mp member)
    have live : Live (nbuckets (slot (2 ^ n) key o)) := not_not.mp fun dead => full ⟨o, below, dead⟩
    rw [slot, place] at live
    exact live.1
  rw [Finset.filter_true_of_mem occupied, Finset.card_range] at fill
  omega

theorem fill_update (nbuckets : Nat → Int32) (n i : Nat) (key : Int32) :
    ((Finset.range (2 ^ n)).filter fun j => Function.update nbuckets i key j ≠ yachtNoKey).card ≤
      ((Finset.range (2 ^ n)).filter fun j => nbuckets j ≠ yachtNoKey).card + 1 := by
  refine (Finset.card_le_card fun j member => ?_).trans (Finset.card_insert_le i _)
  rw [Finset.mem_filter] at member
  by_cases same : j = i
  · exact Finset.mem_insert.mpr (Or.inl same)
  · rw [Function.update_of_ne same] at member
    exact Finset.mem_insert.mpr (Or.inr (Finset.mem_filter.mpr member))

theorem Copied.insert {y : Yacht V} {n i : Nat} {nbuckets : Nat → Int32} {nvalues : Nat → V}
    (copied : Copied y n i nbuckets nvalues) (within : i < 2 ^ n) (live : Live (y.buckets i))
    (fresh : contents y i (y.buckets i) = none) :
    ∃ r, Kinetic.insert nbuckets nvalues (2 ^ n - 1) (2 ^ n) (y.buckets i) (y.values i) = some r ∧
      Copied y n (i + 1) r.buckets r.values := by
  have positive := Nat.two_pow_pos n
  have absent : ∀ j, j < 2 ^ n → nbuckets j ≠ y.buckets i := by
    intro j below same
    have stored := copied.represents.eq_some live below same
    simp [fresh] at stored
  rcases insert_cases nbuckets nvalues n (2 ^ n) (y.buckets i) (y.values i) with
    ⟨p, _, present, _, _⟩ | ⟨p, below, free, before, run⟩ | ⟨full, _⟩
  · exact absurd present (absent _ (slot_lt positive _ _))
  · refine ⟨_, run, copied.arranged.place live absent below before, fun j => ?_, ?_, ?_⟩
    · by_cases same : j = slot (2 ^ n) (y.buckets i) p
      · simpa only [same, Function.update_self] using live.2
      · simpa only [Function.update_of_ne same] using copied.clean j
    · simpa only [contents, live, if_true] using
        copied.represents.place absent (slot_lt positive _ _) free (y.values i)
    · exact (fill_update _ _ _ _).trans (Nat.succ_le_succ copied.fill)
  · obtain ⟨o, below, dead⟩ := exists_free copied.fill within (y.buckets i)
    exact absurd (full o below).2 dead

theorem growLoop_spec {y : Yacht V} (distinct : Distinct y) {n i k : Nat} {nbuckets : Nat → Int32}
    {nvalues : Nat → V} (whole : i + k = y.size) (room : y.size ≤ 2 ^ n) (copied : Copied y n i nbuckets nvalues) :
    ∃ b v, growLoop y (2 ^ n) (2 ^ n - 1) i k nbuckets nvalues = some (b, v) ∧ Copied y n y.size b v := by
  induction k generalizing i nbuckets nvalues with
  | zero => exact ⟨nbuckets, nvalues, rfl, whole ▸ copied⟩
  | succ k ih =>
    by_cases live : Live (y.buckets i)
    · have fresh : contents y i (y.buckets i) = none := by
        cases stored : contents y i (y.buckets i) with
        | none => rfl
        | some v =>
          obtain ⟨j, below, same, _⟩ := (contents_spec distinct (by omega) live v).mp stored
          have equal := distinct i j (by omega) (by omega) live same.symm
          omega
      obtain ⟨r, run, next⟩ := copied.insert (by omega) live fresh
      obtain ⟨b, v, rest, done⟩ := ih (by omega) next
      have guard : y.buckets i ≠ yachtNoKey ∧ y.buckets i ≠ yachtDeleted := live
      exact ⟨b, v, by simp only [growLoop, guard, run, rest, and_self, if_true, ne_eq, not_false_eq_true], done⟩
    · obtain ⟨b, v, rest, done⟩ := ih (by omega) (copied.skip live)
      have guard : ¬ (y.buckets i ≠ yachtNoKey ∧ y.buckets i ≠ yachtDeleted) := live
      exact ⟨b, v, by simp only [growLoop, guard, rest, if_false], done⟩

/-- `grow` never fails an insertion and keeps the map, whatever the
arrangement of the old table: only the distinctness of its keys is used. -/
theorem grow_spec [Inhabited V] {y : Yacht V} {n : Nat} (size : y.size = 2 ^ n) (distinct : Distinct y) :
    ∃ y', grow true y = some y' ∧ y'.size = 2 ^ (n + 1) ∧ y'.mask = 2 ^ (n + 1) - 1 ∧
      Arranged (n + 1) y'.buckets ∧ (∀ j, y'.buckets j ≠ yachtDeleted) ∧
      Represents (n + 1) y'.buckets y'.values (contents y y.size) := by
  have double : 2 * y.size = 2 ^ (n + 1) := by rw [size, Nat.pow_succ, Nat.mul_comm]
  obtain ⟨b, v, run, copied⟩ := growLoop_spec distinct (Nat.zero_add _) (by omega : y.size ≤ 2 ^ (n + 1))
    (copied_start y (n + 1) default)
  refine ⟨⟨2 ^ (n + 1), 2 ^ (n + 1) - 1, b, v⟩, ?_, rfl, rfl, copied.arranged, copied.clean, copied.represents⟩
  simp only [grow, double, if_true, run]

end Kinetic
