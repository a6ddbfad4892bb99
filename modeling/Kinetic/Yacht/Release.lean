import Kinetic.Yacht.Termination

namespace Kinetic
open Probe
variable {V : Type}

/-- The loop of `Yacht_Free` from bucket `i` on, with `n` buckets left: the values that the callback gets, in order. -/
def yachtFreeLoop (y : Yacht V) : Nat → Nat → List V
  | _, 0 => []
  | i, n + 1 =>
    let key := y.buckets i
    if key ≠ yachtNoKey ∧ key ≠ yachtDeleted then y.values i :: yachtFreeLoop y (i + 1) n
    else yachtFreeLoop y (i + 1) n

/-- `Yacht_Free` with a callback. -/
def yachtFree (y : Yacht V) : List V := yachtFreeLoop y 0 y.size

/-- What one call makes of the value that a key was last set to. -/
def YachtOp.lastSet (key : Int32) (before : Option V) : YachtOp V → Option V
  | .set other value _ => if other = key then some value else before
  | .remove other _ => if other = key then none else before
  | _ => before

/-- The value that a key was last set to, if its last `Yacht_Set` or `Yacht_Remove` was a `Yacht_Set`. -/
def lastSet (ops : List (YachtOp V)) (key : Int32) : Option V := ops.foldl (YachtOp.lastSet key) none

/-- `Yacht_Free` passes each key that is set, once, by its value, and nothing else. -/
def FreesOnce (y : Yacht V) (ops : List (YachtOp V)) : Prop :=
  ∃ keys : List Int32, keys.Nodup ∧ (∀ key, key ∈ keys ↔ (lastSet ops key).isSome) ∧
    (yachtFree y).map some = keys.map (lastSet ops)

/-- The call is a `Yacht_Set` of a key that lies behind a tombstone within the buckets that the call probes. -/
def YachtOp.Buried (y : Yacht V) : YachtOp V → Prop
  | .set key _ _ => Hidden y (setWindow y.size) key
  | _ => False

/-- No call of the run is such a `Yacht_Set`. -/
def SetsClear [Inhabited V] : Yacht V → List (YachtOp V) → Prop
  | _, [] => True
  | y, op :: rest => ¬ op.Buried y ∧ ∀ y' res, yachtStep y op = some (y', res) → SetsClear y' rest

instance instDecidableHidden (y : Yacht V) (limit : Nat) (key : Int32) : Decidable (Hidden y limit key) :=
  inferInstanceAs (Decidable (∃ o, o < y.size ∧ y.buckets (slot y.size key o) = key ∧
    ∃ p, p < o ∧ p < limit ∧ y.buckets (slot y.size key p) = yachtDeleted))

instance instDecidableBuried (y : Yacht V) (op : YachtOp V) : Decidable (op.Buried y) :=
  match op with
  | .set key _ _ => instDecidableHidden y (setWindow y.size) key
  | .get _ => instDecidableFalse
  | .member _ => instDecidableFalse
  | .remove _ _ => instDecidableFalse

theorem setsClear_cons [Inhabited V] (y : Yacht V) (op : YachtOp V) (rest : List (YachtOp V)) :
    SetsClear y (op :: rest) ↔ ¬ op.Buried y ∧ ∀ r ∈ yachtStep y op, SetsClear r.1 rest := by
  simp [SetsClear]

instance instDecidableSetsClear [Inhabited V] : (y : Yacht V) → (ops : List (YachtOp V)) → Decidable (SetsClear y ops)
  | _, [] => instDecidableTrue
  | y, op :: rest =>
    have (r : Yacht V × YachtRes V) : Decidable (SetsClear r.1 rest) := instDecidableSetsClear r.1 rest
    decidable_of_iff' _ (setsClear_cons y op rest)

theorem yachtFreeLoop_eq (y : Yacht V) (i n : Nat) :
    yachtFreeLoop y i n = ((List.range' i n).filter fun j => Live (y.buckets j)).map y.values := by
  induction n generalizing i with
  | zero => rfl
  | succ n ih =>
    rw [List.range'_succ, yachtFreeLoop, ih]
    by_cases live : Live (y.buckets i)
    · have guard : y.buckets i ≠ yachtNoKey ∧ y.buckets i ≠ yachtDeleted := live
      rw [if_pos guard, List.filter_cons_of_pos (by simpa using live), List.map_cons]
    · have guard : ¬ (y.buckets i ≠ yachtNoKey ∧ y.buckets i ≠ yachtDeleted) := live
      rw [if_neg guard, List.filter_cons_of_neg (by simpa using live)]

theorem YachtOp.lastSet_eq (m : Int32 → Option V) (op : YachtOp V) (key : Int32) :
    op.lastSet key (m key) = (mapStep m op).1 key := by
  cases op with
  | set other value wantOld =>
    simp only [YachtOp.lastSet, mapStep, Function.update_apply, eq_comm]
  | remove other wantOld =>
    simp only [YachtOp.lastSet, mapStep, Function.update_apply, eq_comm]
  | _ => rfl

/-- Keys that no call is about have not been set. -/
theorem lastSet_untouched {ops : List (YachtOp V)} {key : Int32} (untouched : ∀ op ∈ ops, op.key ≠ key) (before : Option V) :
    ops.foldl (YachtOp.lastSet key) before = before := by
  induction ops generalizing before with
  | nil => rfl
  | cons op rest ih =>
    have other := untouched op List.mem_cons_self
    have same : op.lastSet key before = before := by
      cases op with
      | set k value wantOld => exact if_neg other
      | remove k wantOld => exact if_neg other
      | _ => rfl
    rw [List.foldl_cons, same]
    exact ih (fun op member => untouched op (List.mem_cons_of_mem _ member)) before

section Runs
variable [Inhabited V] {n : Nat} {y : Yacht V} {m : Int32 → Option V} {ops : List (YachtOp V)}

/-- A call leaves a table for the map it should leave, unless it is a `Yacht_Set` of a hidden key. -/
theorem Stands.table (stands : Stands n y m) {op : YachtOp V} (live : Live op.key) (clear : ¬ op.Buried y) :
    ∃ k y' res, yachtStep y op = some (y', res) ∧ Stands k y' (mapStep m op).1 := by
  cases op with
  | set key value wantOld =>
    obtain ⟨k, y', run, next⟩ := stands.step live clear
    exact ⟨k, y', _, run, next⟩
  | get key => exact ⟨n, y, _, rfl, stands⟩
  | member key => exact ⟨n, y, _, rfl, stands⟩
  | remove key wantOld =>
    obtain ⟨k, y', run, next⟩ := stands.step live trivial
    exact ⟨k, y', _, run, next⟩

theorem Stands.after (stands : Stands n y m) (live : ∀ op ∈ ops, Live op.key) (clear : SetsClear y ops) :
    ∃ k y', yachtAfter y ops = some y' ∧ Stands k y' fun key => ops.foldl (YachtOp.lastSet key) (m key) := by
  induction ops generalizing n y m with
  | nil => exact ⟨n, y, rfl, stands⟩
  | cons op rest ih =>
    obtain ⟨k, y', res, run, next⟩ := stands.table (live op List.mem_cons_self) clear.1
    obtain ⟨last, final, later, done⟩ :=
      ih next (fun op member => live op (List.mem_cons_of_mem _ member)) (clear.2 y' res run)
    refine ⟨last, final, by simp only [yachtAfter, run, Option.bind_some, later], ?_⟩
    simp only [List.foldl_cons, YachtOp.lastSet_eq]
    exact done

/-- A `Yacht_Set` of a hidden key puts it in a second bucket. -/
theorem Stands.set_twice (stands : Stands n y m) {key : Int32} (live : Live key)
    (hidden : Hidden y (setWindow y.size) key) (value : V) :
    ∃ r, yachtSet (fun _ => true) y key value = some r ∧ ¬ Distinct r.table := by
  obtain ⟨o, below, atKey, p, before, within, tombstone⟩ := hidden
  rw [stands.size] at below atKey within tombstone
  have positive := Nat.two_pow_pos n
  rcases insert_cases y.buckets y.values n (setWindow (2 ^ n)) key value with
    ⟨q, inside, present, earlier, _⟩ | ⟨q, inside, free, earlier, run⟩ | ⟨full, _⟩
  · have window := setWindow_le (2 ^ n)
    have first : p < q := by
      by_contra later
      rcases Nat.lt_or_eq_of_le (Nat.le_of_not_lt later) with less | same
      · have place : slot (2 ^ n) key q = slot (2 ^ n) key o :=
          stands.arranged.unique (slot_lt positive key q) (slot_lt positive key o) (by rw [present]; exact live)
            (present.trans atKey.symm)
        have equal := ring_injective (by omega) below place
        omega
      · rw [same, tombstone] at present
        rw [← present] at live
        exact live.2 rfl
    exact absurd tombstone (earlier p first).2.2
  · have apart : q < o := by
      by_contra later
      rcases Nat.lt_or_eq_of_le (Nat.le_of_not_lt later) with less | same
      · exact (earlier o less).1 atKey
      · rw [← same, atKey] at free
        exact free live
    refine ⟨⟨{ y with buckets := Function.update y.buckets (slot (2 ^ n) key q) key
                      values := Function.update y.values (slot (2 ^ n) key q) value }, true, none⟩, ?_, fun distinct => ?_⟩
    · simp only [yachtSet, setRounds, yachtSetLoop, stands.mask, stands.size, run]
    · have distinctPlaces : slot (2 ^ n) key o ≠ slot (2 ^ n) key q := by
        intro same
        have equal := ring_injective below (by omega) same
        omega
      have twice := distinct (slot (2 ^ n) key q) (slot (2 ^ n) key o)
      dsimp only at twice
      rw [stands.size, Function.update_self, Function.update_of_ne distinctPlaces, atKey] at twice
      exact distinctPlaces (twice (slot_lt positive key q) (slot_lt positive key o) live rfl).symm
  · exact absurd tombstone (full p within).2.2

/-- If no key is ever in two buckets, no `Yacht_Set` was of a hidden key. -/
theorem Stands.setsClear (stands : Stands n y m) (live : ∀ op ∈ ops, Live op.key)
    (distinct : ∀ pre, pre <+: ops → ∃ y', yachtAfter y pre = some y' ∧ Distinct y') : SetsClear y ops := by
  induction ops generalizing n y m with
  | nil => trivial
  | cons op rest ih =>
    have liveHere := live op List.mem_cons_self
    have clear : ¬ op.Buried y := by
      intro buried
      cases op with
      | set key value wantOld =>
        have liveKey : Live key := liveHere
        obtain ⟨r, run, twice⟩ := stands.set_twice liveKey buried value
        obtain ⟨y', after, once⟩ := distinct [.set key value wantOld] (List.prefix_append _ _)
        simp only [yachtAfter, yachtStep, run, Option.map_some, Option.bind_some, Option.some.injEq] at after
        exact twice (after ▸ once)
      | _ => exact buried
    refine ⟨clear, fun y' res run => ?_⟩
    obtain ⟨k, next, res', run', stands'⟩ := stands.table liveHere clear
    rw [run] at run'
    cases run'
    refine ih stands' (fun op member => live op (List.mem_cons_of_mem _ member)) fun pre part => ?_
    obtain ⟨last, after, once⟩ := distinct (op :: pre) (List.cons_prefix_cons.mpr ⟨rfl, part⟩)
    simp only [yachtAfter, run, Option.bind_some] at after
    exact ⟨last, after, once⟩

theorem SetsClear.of_prefix {pre : List (YachtOp V)} (clear : SetsClear y ops) (part : pre <+: ops) : SetsClear y pre := by
  induction pre generalizing y ops with
  | nil => trivial
  | cons op rest ih =>
    obtain ⟨more, rfl⟩ := part
    exact ⟨clear.1, fun y' res run => ih (clear.2 y' res run) (List.prefix_append rest more)⟩

omit [Inhabited V] in
/-- A table in good order passes each key of its map once. -/
theorem Stands.freesOnce (stands : Stands n y (lastSet ops)) (live : ∀ op ∈ ops, Live op.key) : FreesOnce y ops := by
  have listed (i : Nat) : i ∈ (List.range' 0 y.size).filter (fun j => Live (y.buckets j)) ↔ i < 2 ^ n ∧ Live (y.buckets i) := by
    rw [List.mem_filter, List.mem_range'_1, stands.size, decide_eq_true_iff]
    simp
  refine ⟨((List.range' 0 y.size).filter fun j => Live (y.buckets j)).map y.buckets, ?_, fun key => ?_, ?_⟩
  · refine List.Nodup.map_on ?_ (List.Nodup.filter _ List.nodup_range')
    intro i first j second same
    rw [listed] at first second
    exact stands.arranged.unique first.1 second.1 first.2 same
  · rw [List.mem_map]
    constructor
    · rintro ⟨i, member, rfl⟩
      rw [listed] at member
      rw [stands.represents.eq_some member.2 member.1 rfl]
      rfl
    · intro stored
      obtain ⟨v, value⟩ := Option.isSome_iff_exists.mp stored
      have liveKey : Live key := by
        by_contra dead
        have untouched : lastSet ops key = none :=
          lastSet_untouched (fun op member same => dead (by rw [← same]; exact live op member)) none
        rw [untouched] at value
        cases value
      obtain ⟨i, below, atKey, _⟩ := (stands.represents key liveKey v).mp value
      exact ⟨i, (listed i).mpr ⟨below, atKey ▸ liveKey⟩, atKey⟩
  · rw [yachtFree, yachtFreeLoop_eq, List.map_map, List.map_map]
    refine List.map_congr_left fun i member => ?_
    rw [listed] at member
    exact (stands.represents.eq_some member.2 member.1 rfl).symm

end Runs

/-- In a run from `Yacht_Init`, no key is ever in two buckets and `Yacht_Free` would always pass each key that is set once,
by the value it was last set to, if and only if no `Yacht_Set` of the run is of a key that lies behind a tombstone within
the buckets that the call probes. -/
theorem yacht_frees_once_iff [Inhabited V] (sz2 : Nat) (ops : List (YachtOp V)) (live : ∀ op ∈ ops, Live op.key) :
    (∀ pre, pre <+: ops → ∃ y, yachtAfter (yachtInit V sz2) pre = some y ∧ Distinct y ∧ FreesOnce y pre) ↔
      SetsClear (yachtInit V sz2) ops := by
  constructor
  · intro holds
    refine (stands_init sz2).setsClear live fun pre part => ?_
    obtain ⟨y, after, distinct, _⟩ := holds pre part
    exact ⟨y, after, distinct⟩
  · intro clear pre part
    have liveHere : ∀ op ∈ pre, Live op.key := fun op member => live op (part.subset member)
    obtain ⟨k, y, after, stands⟩ := (stands_init sz2).after liveHere (clear.of_prefix part)
    exact ⟨y, after, stands.distinct, stands.freesOnce liveHere⟩

/-- Two descriptors that share their first bucket are added, and the second one is removed and added again. -/
theorem yacht_frees_once_colliding :
    ∃ y, yachtAfter (yachtInit Nat 4) [YachtOp.set 3 7 true, .set 19 8 true, .remove 19 true, .set 19 9 true] = some y ∧
      Distinct y ∧ FreesOnce y [.set 3 7 true, .set 19 8 true, .remove 19 true, .set 19 9 true] :=
  (yacht_frees_once_iff 4 [.set 3 7 true, .set 19 8 true, .remove 19 true, .set 19 9 true] (by decide)).mpr
    (by decide +kernel) _ (List.prefix_refl _)

/-- The first one is removed, and the second one set to a new value: it has two buckets, and `Yacht_Free` passes both its
values. -/
theorem yacht_frees_twice :
    (∀ op ∈ [YachtOp.set 3 7 true, .set 19 8 true, .remove 3 true, .set 19 9 true], Live op.key) ∧
    ∃ y, yachtAfter (yachtInit Nat 4) [.set 3 7 true, .set 19 8 true, .remove 3 true, .set 19 9 true] = some y ∧
      ¬ Distinct y ∧ yachtFree y = [9, 8] ∧
      ¬ FreesOnce y [.set 3 7 true, .set 19 8 true, .remove 3 true, .set 19 9 true] := by
  refine ⟨by decide, ?_⟩
  have run : (yachtAfter (yachtInit Nat 4) [.set 3 7 true, .set 19 8 true, .remove 3 true, .set 19 9 true]).map
      (fun y => (y.size, y.buckets 1, y.buckets 2, yachtFree y)) = some (16, 19, 19, [9, 8]) := by decide +kernel
  obtain ⟨y, after, seen⟩ := Option.map_eq_some_iff.mp run
  simp only [Prod.mk.injEq] at seen
  obtain ⟨size, first, second, freed⟩ := seen
  refine ⟨y, after, fun distinct => ?_, freed, ?_⟩
  · have equal := distinct 1 2 (by omega) (by omega) (by rw [first]; decide) (by rw [first, second])
    cases equal
  · rintro ⟨keys, _, _, values⟩
    rw [freed] at values
    have member : some 8 ∈ keys.map (lastSet [YachtOp.set 3 7 true, .set 19 8 true, .remove 3 true, .set 19 9 true]) := by
      rw [← values]
      decide
    obtain ⟨key, _, last⟩ := List.mem_map.mp member
    simp only [lastSet, List.foldl_cons, List.foldl_nil, YachtOp.lastSet] at last
    split at last
    · cases last
    · split at last
      · cases last
      · cases last

end Kinetic
