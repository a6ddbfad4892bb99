import Kinetic.Yacht.Grow

namespace Kinetic
open Probe
variable {V : Type}

/-- The key is in the table, but a tombstone lies before it on its probe path,
among the first `limit` buckets of that path. -/
def Hidden (y : Yacht V) (limit : Nat) (key : Int32) : Prop :=
  ∃ o, o < y.size ∧ y.buckets (slot y.size key o) = key ∧
    ∃ p, p < o ∧ p < limit ∧ y.buckets (slot y.size key p) = yachtDeleted

/-- A table of `2 ^ n` buckets in good order that stands for the map `m`. -/
structure Stands (n : Nat) (y : Yacht V) (m : Int32 → Option V) : Prop where
  positive : 0 < n
  size : y.size = 2 ^ n
  mask : y.mask = 2 ^ n - 1
  arranged : Arranged n y.buckets
  represents : Represents n y.buckets y.values m

theorem stands_init [Inhabited V] (sz2 : Nat) :
    Stands (if sz2 = 0 then defSz2 else sz2) (yachtInit V sz2) fun _ => none where
  positive := by
    split
    · decide
    · omega
  size := rfl
  mask := rfl
  arranged := arranged_empty _
  represents := represents_empty _ _

theorem Stands.distinct {n : Nat} {y : Yacht V} {m : Int32 → Option V} (stands : Stands n y m) : Distinct y := by
  intro i j belowI belowJ live same
  rw [stands.size] at belowI belowJ
  exact stands.arranged.unique belowI belowJ live same

/-- The offset at which a present key is met, with the value the map gives it. -/
theorem Stands.offset {n : Nat} {y : Yacht V} {m : Int32 → Option V} (stands : Stands n y m) {key : Int32}
    (live : Live key) {v : V} (stored : m key = some v) :
    ∃ o, o < 2 ^ n ∧ y.buckets (slot (2 ^ n) key o) = key ∧ y.values (slot (2 ^ n) key o) = v ∧
      (∀ p, p < o → y.buckets (slot (2 ^ n) key p) ≠ yachtNoKey) ∧
      ∀ p, p < 2 ^ n → y.buckets (slot (2 ^ n) key p) = key → p = o := by
  obtain ⟨i, within, atKey, value⟩ := (stands.represents key live v).mp stored
  have here : Live (y.buckets i) := atKey.symm ▸ live
  obtain ⟨o, below, place, path⟩ := stands.arranged.reach within here
  rw [atKey] at place path
  refine ⟨o, below, by rw [place, atKey], by rw [place, value], path, fun p inside same => ?_⟩
  have equal := stands.arranged.unique within (slot_lt (Nat.two_pow_pos n) key p) here (atKey.trans same.symm)
  exact ring_injective inside below (equal.symm.trans place.symm)

theorem Stands.get {n : Nat} {y : Yacht V} {m : Int32 → Option V} (stands : Stands n y m) {key : Int32}
    (live : Live key) (clear : ¬ Hidden y y.size key) : yachtGet y key = m key := by
  rw [yachtGet, yachtGetLoop_eq_first stands.mask, stands.size]
  cases stored : m key with
  | none =>
    have absent (i : Nat) (within : i < 2 ^ n) : y.buckets i ≠ key := by
      intro same
      have value := stands.represents.eq_some live within same
      simp [stored] at value
    cases search : first (stops y.buckets (2 ^ n) key) 0 (2 ^ n) with
    | none => rfl
    | some p =>
      have other := absent _ (slot_lt (Nat.two_pow_pos n) key p)
      simp only [Option.bind_some, other, if_false]
  | some v =>
    obtain ⟨o, below, atKey, value, path, only⟩ := stands.offset live stored
    have search : first (stops y.buckets (2 ^ n) key) 0 (2 ^ n) = some o := by
      refine first_eq_some.mpr ⟨o.zero_le, by omega, by simp [stops, atKey], fun p _ before => ?_⟩
      refine stops_eq_false.mpr ⟨fun same => ?_, path p before, fun tombstone => ?_⟩
      · have equal := only p (by omega) same
        omega
      · refine clear ⟨o, by rw [stands.size]; exact below, by rw [stands.size]; exact atKey, p, before, ?_, ?_⟩
        · rw [stands.size]; omega
        · rw [stands.size]; exact tombstone
    simp only [search, Option.bind_some, atKey, if_true, value]

theorem Stands.get_hidden {n : Nat} {y : Yacht V} {m : Int32 → Option V} (stands : Stands n y m) {key : Int32}
    (live : Live key) (hidden : Hidden y y.size key) : yachtGet y key = none ∧ ∃ v, m key = some v := by
  obtain ⟨o, below, atKey, p, before, _, tombstone⟩ := hidden
  rw [stands.size] at below atKey tombstone
  have stored := stands.represents.eq_some live (slot_lt (Nat.two_pow_pos n) key o) atKey
  refine ⟨?_, _, stored⟩
  rw [yachtGet, yachtGetLoop_eq_first stands.mask, stands.size]
  cases search : first (stops y.buckets (2 ^ n) key) 0 (2 ^ n) with
  | none => rfl
  | some q =>
    obtain ⟨_, within, _, earlier⟩ := first_eq_some.mp search
    obtain ⟨r, _, _, _, _, only⟩ := stands.offset live stored
    have other : y.buckets (slot (2 ^ n) key q) ≠ key := by
      intro same
      have equal := (only q (by omega) same).trans (only o below atKey).symm
      have quiet := stops_eq_false.mp (earlier p p.zero_le (by omega))
      exact quiet.2.2 tombstone
    simp only [Option.bind_some, other, if_false]

/-- After a growth the table is in good order and without tombstones, whatever the order of the old one was. -/
theorem grown_stands [Inhabited V] {n : Nat} {y : Yacht V} (size : y.size = 2 ^ n) (distinct : Distinct y) :
    ∃ y', Kinetic.grow true y = some y' ∧ Stands (n + 1) y' (contents y y.size) ∧ ∀ j, y'.buckets j ≠ yachtDeleted := by
  obtain ⟨y', run, size, mask, arranged, clean, represents⟩ := grow_spec size distinct
  exact ⟨y', run, ⟨n.succ_pos, size, mask, arranged, represents⟩, clean⟩

theorem not_hidden_of_clean {y : Yacht V} (clean : ∀ j, y.buckets j ≠ yachtDeleted) (limit : Nat) (key : Int32) :
    ¬ Hidden y limit key := by
  rintro ⟨_, _, _, p, _, _, tombstone⟩
  exact clean _ tombstone

/-- After a growth nothing is hidden, and the map is the same. -/
theorem Stands.grow [Inhabited V] {n : Nat} {y : Yacht V} {m : Int32 → Option V} (stands : Stands n y m) :
    ∃ y', Kinetic.grow true y = some y' ∧ Stands (n + 1) y' m ∧ ∀ limit key, ¬ Hidden y' limit key := by
  obtain ⟨y', run, grown, clean⟩ := grown_stands stands.size stands.distinct
  refine ⟨y', run, { grown with represents := fun key live v => ?_ }, not_hidden_of_clean clean⟩
  rw [← grown.represents key live v, contents_spec stands.distinct le_rfl live v, stands.size]
  exact stands.represents key live v

/-- Growth keeps the map of every table whose keys are distinct, also of keys that could not be found before: each
insertion succeeds, every key is found with its value, nothing else is, and no tombstone is left. -/
theorem grow_preserves_map [Inhabited V] {n : Nat} (y : Yacht V) (size : y.size = 2 ^ n) (distinct : Distinct y) :
    ∃ y', Kinetic.grow true y = some y' ∧ y'.size = 2 * y.size ∧ y'.mask = y'.size - 1 ∧
      (∀ i < y.size, Live (y.buckets i) → yachtGet y' (y.buckets i) = some (y.values i)) ∧
      (∀ key, Live key → (∀ i < y.size, y.buckets i ≠ key) → yachtGet y' key = none) ∧
      ∀ j < y'.size, y'.buckets j ≠ yachtDeleted := by
  obtain ⟨y', run, grown, clean⟩ := grown_stands size distinct
  have double : y'.size = 2 * y.size := by rw [grown.size, size, Nat.pow_succ, Nat.mul_comm]
  have found (key : Int32) (live : Live key) : yachtGet y' key = contents y y.size key :=
    grown.get live (not_hidden_of_clean clean _ key)
  refine ⟨y', run, double, by rw [grown.mask, grown.size], fun i within live => ?_, fun key live absent => ?_,
    fun j _ => clean j⟩
  · rw [found _ live]
    exact (contents_spec distinct le_rfl live _).mpr ⟨i, within, rfl, rfl⟩
  · rw [found key live]
    cases stored : contents y y.size key with
    | none => rfl
    | some v =>
      obtain ⟨i, within, same, _⟩ := (contents_spec distinct le_rfl live v).mp stored
      exact absurd same (absent i within)

/-- A table in which the key 19 lies behind a tombstone on its probe path. -/
def scattered : Yacht Nat where
  size := 4
  mask := 3
  buckets i := if i = 1 then yachtDeleted else if i = 2 then 19 else if i = 3 then 7 else yachtNoKey
  values i := i

theorem grow_preserves_map_scattered : yachtGet scattered 19 = none ∧ ∃ y', Kinetic.grow true scattered = some y' ∧
    yachtGet y' 19 = some 2 ∧ yachtGet y' 7 = some 3 ∧ yachtGet y' 5 = none := by
  have distinct : ∀ i < 4, ∀ j < 4, Live (scattered.buckets i) → scattered.buckets i = scattered.buckets j → i = j := by decide
  obtain ⟨y', run, _, _, kept, absent, _⟩ := grow_preserves_map (n := 2) scattered rfl
    fun i j belowI belowJ => distinct i belowI j belowJ
  exact ⟨by decide, y', run, kept 2 (by decide) (by decide), kept 3 (by decide) (by decide), absent 5 (by decide) (by decide)⟩

theorem setWindow_le (size : Nat) : setWindow size ≤ size := by
  unfold setWindow maxProbes
  split <;> omega

theorem setWindow_pos {size : Nat} (large : 2 ≤ size) : 0 < setWindow size := by
  unfold setWindow maxProbes
  split <;> omega

/-- One round of `Yacht_Set`: it succeeds with the old value of the map, or
the table has fewer than `2 ^ 32` buckets and must grow. -/
theorem Stands.insert {n : Nat} {y : Yacht V} {m : Int32 → Option V} (stands : Stands n y m) {key : Int32}
    (live : Live key) (clear : ¬ Hidden y (setWindow y.size) key) (value : V) :
    (∃ r, Kinetic.insert y.buckets y.values y.mask (setWindow y.size) key value = some r ∧ r.old = m key ∧
      Stands n { y with buckets := r.buckets, values := r.values } (Function.update m key (some value))) ∨
    Kinetic.insert y.buckets y.values y.mask (setWindow y.size) key value = none ∧ n < 32 := by
  have positive := Nat.two_pow_pos n
  have window := setWindow_le (2 ^ n)
  rw [stands.mask, stands.size]
  rw [stands.size] at clear
  rcases insert_cases y.buckets y.values n (setWindow (2 ^ n)) key value with
    ⟨p, _, present, _, run⟩ | ⟨p, below, free, before, run⟩ | ⟨full, run⟩
  · have place := slot_lt positive key p
    exact Or.inl ⟨_, run, (stands.represents.eq_some live place present).symm, stands.positive, rfl, rfl,
      stands.arranged, stands.represents.overwrite stands.arranged live place present value⟩
  · have stored : m key = none := by
      cases present : m key with
      | none => rfl
      | some v =>
        obtain ⟨o, inside, atKey, _, path, _⟩ := stands.offset live present
        have after : p < o := by
          by_contra reached
          rcases Nat.lt_or_eq_of_le (Nat.le_of_not_lt reached) with earlier | equal
          · exact absurd atKey (before o earlier).1
          · rw [← equal, atKey] at free
            exact absurd live free
        rcases not_live_iff.mp free with empty | tombstone
        · exact absurd empty (path p after)
        · refine absurd ⟨o, ?_⟩ clear
          rw [stands.size]
          exact ⟨inside, atKey, p, after, below, tombstone⟩
    have absent (i : Nat) (within : i < 2 ^ n) : y.buckets i ≠ key := by
      intro same
      have found := stands.represents.eq_some live within same
      simp [stored] at found
    exact Or.inl ⟨_, run, stored.symm, stands.positive, rfl, rfl, stands.arranged.place live absent (by omega) before,
      stands.represents.place absent (slot_lt positive key p) free value⟩
  · refine Or.inr ⟨run, ?_⟩
    by_contra large
    have two : 2 ^ 1 ≤ 2 ^ n := Nat.pow_le_pow_right (by omega) stands.positive
    obtain ⟨other, liveFirst⟩ := full 0 (setWindow_pos two)
    have first := stands.arranged.spread (by omega) (slot_lt positive key 0) liveFirst
    exact other (slot_zero_injective (by omega) first)

theorem Stands.setLoop [Inhabited V] {n fuel : Nat} {y : Yacht V} {m : Int32 → Option V} (stands : Stands n y m)
    {key : Int32} (live : Live key) (clear : ¬ Hidden y (setWindow y.size) key) (value : V)
    (positive : 0 < fuel) (enough : 33 ≤ fuel + n) :
    ∃ r k, yachtSetLoop key value fuel (fun _ => true) y = some r ∧ r.ok = true ∧ r.old = m key ∧
      Stands k r.table (Function.update m key (some value)) := by
  induction fuel generalizing n y with
  | zero => omega
  | succ fuel ih =>
    rcases stands.insert live clear value with ⟨r, run, old, next⟩ | ⟨run, small⟩
    · exact ⟨⟨{ y with buckets := r.buckets, values := r.values }, true, r.old⟩, n,
        by simp only [yachtSetLoop, run], rfl, old, next⟩
    · obtain ⟨y', growth, next, nothing⟩ := stands.grow
      obtain ⟨r, k, rest, ok, old, done⟩ := ih next (nothing _ _) (by omega) (by omega)
      exact ⟨r, k, by simp only [yachtSetLoop, run, growth, rest], ok, old, done⟩

theorem Stands.set [Inhabited V] {n : Nat} {y : Yacht V} {m : Int32 → Option V} (stands : Stands n y m)
    {key : Int32} (live : Live key) (clear : ¬ Hidden y (setWindow y.size) key) (value : V) :
    ∃ r k, yachtSet (fun _ => true) y key value = some r ∧ r.ok = true ∧ r.old = m key ∧
      Stands k r.table (Function.update m key (some value)) :=
  stands.setLoop live clear value (by decide) (by unfold setRounds; omega)

/-- A growth keeps the map, whatever allocations it gets. -/
theorem Stands.grown [Inhabited V] {n : Nat} {y y' : Yacht V} {m : Int32 → Option V} (stands : Stands n y m) {alloc : Bool}
    (growth : Kinetic.grow alloc y = some y') : Stands (n + 1) y' m ∧ ∀ limit key, ¬ Hidden y' limit key := by
  cases alloc with
  | true =>
    obtain ⟨grown, run, next⟩ := stands.grow
    rw [run] at growth
    cases growth
    exact next
  | false => cases growth

/-- A `Yacht_Set` that returns false leaves a table for the same map. -/
theorem Stands.setLoop_failed [Inhabited V] {n fuel : Nat} {y : Yacht V} {m : Int32 → Option V} (stands : Stands n y m)
    {key : Int32} {value : V} {allocs : Nat → Bool} {r : SetResult V}
    (run : yachtSetLoop key value fuel allocs y = some r) (failed : r.ok = false) : ∃ k, Stands k r.table m := by
  induction fuel generalizing n y allocs with
  | zero => cases run
  | succ fuel ih =>
    simp only [yachtSetLoop] at run
    split at run
    · cases run
      cases failed
    · split at run
      · rename_i y' growth
        exact ih (stands.grown growth).1 run
      · cases run
        exact ⟨n, stands⟩

/-- A `Yacht_Set` that returns true has set the key, if no tombstone hid it. -/
theorem Stands.setLoop_done [Inhabited V] {n fuel : Nat} {y : Yacht V} {m : Int32 → Option V} (stands : Stands n y m)
    {key : Int32} (live : Live key) (clear : ¬ Hidden y (setWindow y.size) key) {value : V} {allocs : Nat → Bool}
    {r : SetResult V} (run : yachtSetLoop key value fuel allocs y = some r) (done : r.ok = true) :
    r.old = m key ∧ ∃ k, Stands k r.table (Function.update m key (some value)) := by
  induction fuel generalizing n y allocs with
  | zero => cases run
  | succ fuel ih =>
    rcases stands.insert live clear value with ⟨inserted, found, old, next⟩ | ⟨full, _⟩
    · simp only [yachtSetLoop, found] at run
      cases run
      exact ⟨old, n, next⟩
    · simp only [yachtSetLoop, full] at run
      split at run
      · rename_i y' growth
        obtain ⟨next, nothing⟩ := stands.grown growth
        exact ih next (nothing _ _) run
      · cases run
        cases done

/-- `Yacht_Set` returns, whatever allocations it gets. -/
theorem Stands.setLoop_returns [Inhabited V] {n fuel : Nat} {y : Yacht V} {m : Int32 → Option V} (stands : Stands n y m)
    {key : Int32} (live : Live key) (clear : ¬ Hidden y (setWindow y.size) key) (value : V) (allocs : Nat → Bool)
    (positive : 0 < fuel) (enough : 33 ≤ fuel + n) : ∃ r, yachtSetLoop key value fuel allocs y = some r := by
  induction fuel generalizing n y allocs with
  | zero => omega
  | succ fuel ih =>
    rcases stands.insert live clear value with ⟨r, run, _⟩ | ⟨full, small⟩
    · exact ⟨⟨{ y with buckets := r.buckets, values := r.values }, true, r.old⟩, by simp only [yachtSetLoop, run]⟩
    · simp only [yachtSetLoop, full]
      cases growth : Kinetic.grow (allocs 0) y with
      | none => exact ⟨_, rfl⟩
      | some y' =>
        obtain ⟨next, nothing⟩ := stands.grown growth
        exact ih next (nothing _ _) (fun j => allocs (j + 1)) (by omega) (by omega)

theorem Stands.set_returns [Inhabited V] {n : Nat} {y : Yacht V} {m : Int32 → Option V} (stands : Stands n y m)
    {key : Int32} (live : Live key) (clear : ¬ Hidden y (setWindow y.size) key) (value : V) (allocs : Nat → Bool) :
    ∃ r, yachtSet allocs y key value = some r :=
  stands.setLoop_returns live clear value allocs (by decide) (by unfold setRounds; omega)

/-- A `Yacht_Set` of a hidden key takes the tombstone and reports no old value. -/
theorem Stands.set_hidden [Inhabited V] {n : Nat} {y : Yacht V} {m : Int32 → Option V} (stands : Stands n y m)
    {key : Int32} (live : Live key) (hidden : Hidden y (setWindow y.size) key) (value : V) :
    (∃ r, yachtSet (fun _ => true) y key value = some r ∧ r.old = none) ∧ ∃ v, m key = some v := by
  obtain ⟨o, below, atKey, p, before, within, tombstone⟩ := hidden
  rw [stands.size] at below atKey within tombstone
  have stored := stands.represents.eq_some live (slot_lt (Nat.two_pow_pos n) key o) atKey
  refine ⟨?_, _, stored⟩
  obtain ⟨r, _, _, _, _, only⟩ := stands.offset live stored
  have window := setWindow_le (2 ^ n)
  rcases insert_cases y.buckets y.values n (setWindow (2 ^ n)) key value with
    ⟨q, inside, present, earlier, _⟩ | ⟨q, inside, free, earlier, run⟩ | ⟨full, _⟩
  · have equal := (only q (by omega) present).trans (only o below atKey).symm
    exact absurd tombstone (earlier p (by omega)).2.2
  · rw [← stands.mask, ← stands.size] at run
    exact ⟨⟨{ y with buckets := _, values := _ }, true, none⟩,
      by simp only [yachtSet, setRounds, yachtSetLoop, run]; rfl, rfl⟩
  · exact absurd tombstone (full p within).2.2

theorem Stands.remove_none [Inhabited V] {n : Nat} {y : Yacht V} {m : Int32 → Option V} (stands : Stands n y m)
    {key : Int32} (live : Live key) (wantOld : Bool) (stored : m key = none) : yachtRemove y key wantOld = none := by
  rw [yachtRemove, yachtRemoveLoop_eq_first stands.mask, stands.size]
  refine Option.bind_eq_none_iff.mpr fun p _ => ?_
  have other : y.buckets (slot (2 ^ n) key p) ≠ key := by
    intro same
    have found := stands.represents.eq_some live (slot_lt (Nat.two_pow_pos n) key p) same
    simp [stored] at found
  simp only [other, if_false]

/-- `Yacht_Remove` steps over tombstones, so it finds every key of the map. -/
theorem Stands.remove_some [Inhabited V] {n : Nat} {y : Yacht V} {m : Int32 → Option V} (stands : Stands n y m)
    {key : Int32} (live : Live key) (wantOld : Bool) {v : V} (stored : m key = some v) :
    ∃ y', yachtRemove y key wantOld = some (y', v) ∧ Stands n y' (Function.update m key none) := by
  obtain ⟨o, below, atKey, value, path, only⟩ := stands.offset live stored
  have search : first (fun p => y.buckets (slot (2 ^ n) key p) = key ∨ y.buckets (slot (2 ^ n) key p) = yachtNoKey)
      0 (2 ^ n) = some o := by
    refine first_eq_some.mpr ⟨o.zero_le, by omega, by simp [atKey], fun p _ before => ?_⟩
    have other : y.buckets (slot (2 ^ n) key p) ≠ key := by
      intro same
      have equal := only p (by omega) same
      omega
    simp only [other, path p before, or_self, decide_false]
  have place := slot_lt (Nat.two_pow_pos n) key o
  obtain ⟨freed, freedEq⟩ : ∃ freed, freed =
      if y.buckets (slot (2 ^ n) key (o + 1)) = yachtNoKey then yachtNoKey else yachtDeleted := ⟨_, rfl⟩
  obtain ⟨values, valuesEq⟩ : ∃ values, values =
      if wantOld then Function.update y.values (slot (2 ^ n) key o) default else y.values := ⟨_, rfl⟩
  have run : yachtRemove y key wantOld =
      some ({ y with buckets := Function.update y.buckets (slot (2 ^ n) key o) freed, values := values }, v) := by
    rw [yachtRemove, yachtRemoveLoop_eq_first stands.mask, stands.size, search]
    simp only [Option.bind_some, atKey, if_true, value, freedEq, valuesEq]
  have dead : ¬ Live freed := by
    rw [freedEq]
    split <;> decide
  have cut : freed = yachtNoKey → y.buckets (slot (2 ^ n) key (o + 1)) = yachtNoKey := by
    rw [freedEq]
    split
    · intro _; assumption
    · intro emptied; exact absurd emptied (by decide)
  have frame (j : Nat) (other : j ≠ slot (2 ^ n) key o) : values j = y.values j := by
    rw [valuesEq]
    split
    · exact Function.update_of_ne other ..
    · rfl
  exact ⟨_, run, stands.positive, stands.size, stands.mask, stands.arranged.remove dead cut,
    stands.represents.remove stands.arranged live place atKey dead frame⟩

end Kinetic
