import Kinetic.Yacht.Refinement

namespace Kinetic
open Probe
variable {V : Type}

/-- The table that a sequence of calls leaves, all allocations succeeding. -/
def yachtAfter [Inhabited V] : Yacht V → List (YachtOp V) → Option (Yacht V)
  | y, [] => some y
  | y, op :: rest => (yachtStep y op).bind fun r => yachtAfter r.1 rest

/-- From `2 ^ 32` buckets on every key sits in its first bucket. A key may sit in two smaller ones. -/
def Homed (n : Nat) (buckets : Nat → Int32) : Prop :=
  32 ≤ n → ∀ i, i < 2 ^ n → Live (buckets i) → slot (2 ^ n) (buckets i) 0 = i

theorem homed_empty (n : Nat) : Homed n fun _ => yachtNoKey := fun _ _ _ live => absurd rfl live.1

theorem Homed.update {n i : Nat} {buckets : Nat → Int32} {key : Int32} (homed : Homed n buckets)
    (home : 32 ≤ n → Live key → slot (2 ^ n) key 0 = i) : Homed n (Function.update buckets i key) := by
  intro large j within live
  by_cases here : j = i
  · subst here
    rw [Function.update_self] at live ⊢
    exact home large live
  · rw [Function.update_of_ne here] at live ⊢
    exact homed large j within live

/-- In a table of that size, the first bucket of a key has no other key. -/
theorem Homed.own {n : Nat} {buckets : Nat → Int32} {key : Int32} (homed : Homed n buckets) (large : 32 ≤ n)
    (other : buckets (slot (2 ^ n) key 0) ≠ key) : ¬ Live (buckets (slot (2 ^ n) key 0)) := by
  intro live
  have home := homed large _ (slot_lt (Nat.two_pow_pos n) key 0) live
  exact other (slot_zero_injective large home)

/-- `insert` succeeds in a window with a free bucket, and in every window of a table of that size. -/
theorem Homed.insert {n maxFill : Nat} {buckets : Nat → Int32} (homed : Homed n buckets) (values : Nat → V) (key : Int32)
    (value : V) (window : 0 < maxFill) :
    (∃ r i, Kinetic.insert buckets values (2 ^ n - 1) maxFill key value = some r ∧ Homed n r.buckets ∧
      (r.buckets = buckets ∨ r.buckets = Function.update buckets i key)) ∨
    Kinetic.insert buckets values (2 ^ n - 1) maxFill key value = none ∧ n < 32 ∧
      ∀ o < maxFill, Live (buckets (slot (2 ^ n) key o)) := by
  rcases insert_cases buckets values n maxFill key value with
    ⟨p, _, _, _, run⟩ | ⟨p, _, _, before, run⟩ | ⟨full, run⟩
  · exact .inl ⟨_, 0, run, homed, .inl rfl⟩
  · refine .inl ⟨_, slot (2 ^ n) key p, run, homed.update fun large _ => ?_, .inr rfl⟩
    rcases Nat.eq_zero_or_pos p with first | later
    · rw [first]
    · exact absurd (before 0 later).2 (homed.own large (before 0 later).1)
  · refine .inr ⟨run, ?_, fun o below => (full o below).2⟩
    by_contra large
    exact homed.own (by omega) (full 0 window).1 (full 0 window).2

/-- The loop of `grow` succeeds whatever is in the old table, also if it has a key twice. -/
theorem growLoop_total {y : Yacht V} {n i k : Nat} {nbuckets : Nat → Int32} {nvalues : Nat → V} (whole : i + k ≤ y.size)
    (room : y.size ≤ 2 ^ n) (homed : Homed n nbuckets)
    (fill : ((Finset.range (2 ^ n)).filter fun j => nbuckets j ≠ yachtNoKey).card ≤ i) :
    ∃ b v, growLoop y (2 ^ n) (2 ^ n - 1) i k nbuckets nvalues = some (b, v) ∧ Homed n b := by
  induction k generalizing i nbuckets nvalues with
  | zero => exact ⟨nbuckets, nvalues, rfl, homed⟩
  | succ k ih =>
    by_cases live : Live (y.buckets i)
    · have guard : y.buckets i ≠ yachtNoKey ∧ y.buckets i ≠ yachtDeleted := live
      obtain ⟨o, below, free⟩ := exists_free fill (by omega) (y.buckets i)
      rcases homed.insert nvalues (y.buckets i) (y.values i) (Nat.two_pow_pos n) with
        ⟨r, j, run, next, change⟩ | ⟨_, _, full⟩
      · have filled : ((Finset.range (2 ^ n)).filter fun j => r.buckets j ≠ yachtNoKey).card ≤ i + 1 := by
          rcases change with same | placed
          · rw [same]
            omega
          · rw [placed]
            exact (fill_update nbuckets n j (y.buckets i)).trans (Nat.succ_le_succ fill)
        obtain ⟨b, v, rest, done⟩ : ∃ b v, growLoop y (2 ^ n) (2 ^ n - 1) (i + 1) k r.buckets r.values = some (b, v) ∧
            Homed n b := ih (by omega) next filled
        exact ⟨b, v, by simp only [growLoop, guard, run, rest, and_self, if_true, ne_eq, not_false_eq_true], done⟩
      · exact absurd (full o below) free
    · have guard : ¬ (y.buckets i ≠ yachtNoKey ∧ y.buckets i ≠ yachtDeleted) := live
      obtain ⟨b, v, rest, done⟩ : ∃ b v, growLoop y (2 ^ n) (2 ^ n - 1) (i + 1) k nbuckets nvalues = some (b, v) ∧
          Homed n b := ih (by omega) homed (by omega)
      exact ⟨b, v, by simp only [growLoop, guard, rest, if_false], done⟩

/-- A table of `2 ^ n` buckets. -/
structure SizedTable (n : Nat) (y : Yacht V) : Prop where
  positive : 0 < n
  size : y.size = 2 ^ n
  mask : y.mask = 2 ^ n - 1
  homed : Homed n y.buckets

section SizedTable
variable [Inhabited V] {n : Nat} {y : Yacht V}

theorem sizedTable_init (sz2 : Nat) : SizedTable (if sz2 = 0 then defSz2 else sz2) (yachtInit V sz2) where
  positive := by
    split
    · decide
    · omega
  size := rfl
  mask := rfl
  homed := homed_empty _

theorem SizedTable.grow (sized : SizedTable n y) : ∃ y', Kinetic.grow true y = some y' ∧ SizedTable (n + 1) y' := by
  have double : 2 * y.size = 2 ^ (n + 1) := by rw [sized.size, Nat.pow_succ, Nat.mul_comm]
  obtain ⟨b, v, run, homed⟩ : ∃ b v, growLoop y (2 ^ (n + 1)) (2 ^ (n + 1) - 1) 0 y.size (fun _ => yachtNoKey)
      (fun _ => default) = some (b, v) ∧ Homed (n + 1) b :=
    growLoop_total (by omega) (by omega) (homed_empty _) (by simp)
  refine ⟨⟨2 ^ (n + 1), 2 ^ (n + 1) - 1, b, v⟩, ?_, n.succ_pos, rfl, rfl, homed⟩
  simp only [Kinetic.grow, double, if_true, run]

/-- The loop of `Yacht_Set` ends when the table has `2 ^ 32` buckets, if not before. -/
theorem SizedTable.setLoop {fuel : Nat} (sized : SizedTable n y) (key : Int32) (value : V) (positive : 0 < fuel)
    (enough : 33 ≤ fuel + n) :
    ∃ r k, yachtSetLoop key value fuel (fun _ => true) y = some r ∧ r.ok = true ∧ SizedTable k r.table ∧ (k = n ∨ k ≤ 32) := by
  induction fuel generalizing n y with
  | zero => omega
  | succ fuel ih =>
    have two : 2 ^ 1 ≤ 2 ^ n := Nat.pow_le_pow_right (by omega) sized.positive
    have window : 0 < setWindow y.size := by
      rw [sized.size]
      exact setWindow_pos two
    have inserted := sized.homed.insert y.values key value window
    rw [← sized.mask] at inserted
    rcases inserted with ⟨r, i, run, homed, _⟩ | ⟨run, small, _⟩
    · refine ⟨⟨{ y with buckets := r.buckets, values := r.values }, true, r.old⟩, n, ?_, rfl, ?_, .inl rfl⟩
      · simp only [yachtSetLoop, run]
      · exact ⟨sized.positive, sized.size, sized.mask, homed⟩
    · obtain ⟨y', growth, next⟩ := sized.grow
      obtain ⟨r, k, rest, ok, done, bound⟩ := ih next (by omega) (by omega)
      refine ⟨r, k, by simp only [yachtSetLoop, run, growth, rest], ok, done, .inr ?_⟩
      omega

theorem SizedTable.set (sized : SizedTable n y) (key : Int32) (value : V) :
    ∃ r k, yachtSet (fun _ => true) y key value = some r ∧ r.ok = true ∧ SizedTable k r.table ∧ (k = n ∨ k ≤ 32) :=
  sized.setLoop key value (by decide) (by unfold setRounds; omega)

/-- `Yacht_Remove` frees one bucket. -/
theorem yachtRemoveLoop_frees {key : Int32} {wantOld : Bool} {b o k : Nat} {y' : Yacht V} {v : V}
    (run : yachtRemoveLoop y key wantOld b o k = some (y', v)) :
    ∃ i freed, ¬ Live freed ∧ y'.size = y.size ∧ y'.mask = y.mask ∧ y'.buckets = Function.update y.buckets i freed := by
  induction k generalizing o with
  | zero => cases run
  | succ k ih =>
    unfold yachtRemoveLoop at run
    dsimp only at run
    split at run
    · cases run
      refine ⟨_, _, ?_, rfl, rfl, rfl⟩
      split <;> decide
    · split at run
      · cases run
      · exact ih run

theorem SizedTable.step (sized : SizedTable n y) (op : YachtOp V) : ∃ y' res k, yachtStep y op = some (y', res) ∧ SizedTable k y' := by
  cases op with
  | set key value wantOld =>
    obtain ⟨r, k, run, _, next, _⟩ := sized.set key value
    exact ⟨r.table, _, k, by rw [yachtStep, run, Option.map_some], next⟩
  | get key => exact ⟨y, _, n, rfl, sized⟩
  | member key => exact ⟨y, _, n, rfl, sized⟩
  | remove key wantOld =>
    cases run : yachtRemove y key wantOld with
    | none => exact ⟨y, .remove false none, n, by simp only [yachtStep, run], sized⟩
    | some found =>
      obtain ⟨y', v⟩ := found
      obtain ⟨i, freed, dead, size, mask, buckets⟩ := yachtRemoveLoop_frees run
      refine ⟨y', .remove true (if wantOld then some v else none), n, by simp only [yachtStep, run], sized.positive,
        size.trans sized.size, mask.trans sized.mask, ?_⟩
      rw [buckets]
      exact sized.homed.update fun _ live => absurd live dead

theorem SizedTable.after (sized : SizedTable n y) (ops : List (YachtOp V)) : ∃ y' k, yachtAfter y ops = some y' ∧ SizedTable k y' := by
  induction ops generalizing n y with
  | nil => exact ⟨y, n, rfl, sized⟩
  | cons op rest ih =>
    obtain ⟨y', res, k, run, next⟩ := sized.step op
    obtain ⟨last, m, later, done⟩ := ih next
    exact ⟨last, m, by simp only [yachtAfter, run, Option.bind_some, later], done⟩

end SizedTable

/-- `Yacht_Set` returns true on every table that a sequence of calls leaves, with any keys, and makes the table grow to
`2 ^ 32` buckets at most. -/
theorem yachtSet_returns [Inhabited V] (sz2 : Nat) (ops : List (YachtOp V)) :
    ∃ y, yachtAfter (yachtInit V sz2) ops = some y ∧ ∀ key value, ∃ r, yachtSet (fun _ => true) y key value = some r ∧
      r.ok = true ∧ r.table.size ≤ max y.size (2 ^ 32) := by
  obtain ⟨y, n, run, sized⟩ := (sizedTable_init sz2).after ops
  refine ⟨y, run, fun key value => ?_⟩
  obtain ⟨r, k, set, ok, next, bound⟩ := sized.set key value
  refine ⟨r, set, ok, ?_⟩
  rw [next.size, sized.size]
  rcases bound with rfl | small
  · exact le_max_left _ _
  · exact (Nat.pow_le_pow_right (by omega) small).trans (le_max_right _ _)

end Kinetic
