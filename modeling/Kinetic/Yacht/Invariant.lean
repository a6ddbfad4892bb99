import Kinetic.Yacht.Probing

namespace Kinetic
open Probe
variable {V : Type}

/-- The layout every operation relies on: a key sits in one bucket, no never
used bucket lies before it on its probe path, and from `2 ^ 32` buckets on it sits in its first one. -/
structure Arranged (n : Nat) (buckets : Nat → Int32) : Prop where
  unique : ∀ {i j}, i < 2 ^ n → j < 2 ^ n → Live (buckets i) → buckets i = buckets j → i = j
  reach : ∀ {i}, i < 2 ^ n → Live (buckets i) → ∃ o, o < 2 ^ n ∧ slot (2 ^ n) (buckets i) o = i ∧
    ∀ p, p < o → buckets (slot (2 ^ n) (buckets i) p) ≠ yachtNoKey
  spread : 32 ≤ n → ∀ {i}, i < 2 ^ n → Live (buckets i) → slot (2 ^ n) (buckets i) 0 = i

/-- The finite map a pair of arrays stands for. -/
def Represents (n : Nat) (buckets : Nat → Int32) (values : Nat → V) (m : Int32 → Option V) : Prop :=
  ∀ key, Live key → ∀ v, m key = some v ↔ ∃ i, i < 2 ^ n ∧ buckets i = key ∧ values i = v

theorem Represents.eq_some {n : Nat} {buckets : Nat → Int32} {values : Nat → V} {m : Int32 → Option V}
    (rep : Represents n buckets values m) {key : Int32} (live : Live key) {i : Nat} (within : i < 2 ^ n)
    (atKey : buckets i = key) : m key = some (values i) :=
  (rep key live _).mpr ⟨i, within, atKey, rfl⟩

theorem arranged_empty (n : Nat) : Arranged n fun _ => yachtNoKey where
  unique _ _ live _ := absurd rfl live.1
  reach _ live := absurd rfl live.1
  spread _ _ _ live := absurd rfl live.1

theorem represents_empty (n : Nat) (v : V) : Represents n (fun _ => yachtNoKey) (fun _ => v) fun _ => none := by
  intro key live w
  simp only [reduceCtorEq, false_iff, not_exists, not_and]
  exact fun _ _ same _ => live.1 same.symm

/-- Writing the value of a key that is present. -/
theorem Represents.overwrite {n : Nat} {buckets : Nat → Int32} {values : Nat → V} {m : Int32 → Option V}
    (arranged : Arranged n buckets) (rep : Represents n buckets values m) {key : Int32} (live : Live key)
    {i : Nat} (within : i < 2 ^ n) (atKey : buckets i = key) (value : V) :
    Represents n buckets (Function.update values i value) (Function.update m key (some value)) := by
  have here := live
  rw [← atKey] at here
  intro other otherLive v
  by_cases same : other = key
  · subst other
    simp only [Function.update_self, Option.some.injEq]
    constructor
    · rintro rfl
      exact ⟨i, within, atKey, Function.update_self ..⟩
    · rintro ⟨j, below, atJ, stored⟩
      have equal := arranged.unique within below here (atKey.trans atJ.symm)
      rwa [← equal, Function.update_self] at stored
  · rw [Function.update_of_ne same, rep other otherLive]
    refine exists_congr fun j => and_congr_right fun _ => and_congr_right fun atJ => ?_
    rw [Function.update_of_ne (by rintro rfl; exact same (atJ.symm.trans atKey))]

/-- Placing a key that is nowhere in the table into the first free bucket of its path. -/
theorem Arranged.place {n : Nat} {buckets : Nat → Int32} (arranged : Arranged n buckets) {key : Int32}
    (live : Live key) (absent : ∀ i, i < 2 ^ n → buckets i ≠ key) {o : Nat} (within : o < 2 ^ n)
    (before : ∀ p, p < o → buckets (slot (2 ^ n) key p) ≠ key ∧ Live (buckets (slot (2 ^ n) key p))) :
    Arranged n (Function.update buckets (slot (2 ^ n) key o) key) := by
  have positive := Nat.two_pow_pos n
  have off {j : Nat} (below : j < 2 ^ n) (other : j ≠ slot (2 ^ n) key o) :
      Function.update buckets (slot (2 ^ n) key o) key j = buckets j ∧ buckets j ≠ key :=
    ⟨Function.update_of_ne other .., absent j below⟩
  have here := Function.update_self (slot (2 ^ n) key o) key buckets
  refine ⟨fun {i j} belowI belowJ liveI same => ?_, fun {i} belowI liveI => ?_, fun large {i} belowI liveI => ?_⟩
  · by_cases atI : i = slot (2 ^ n) key o <;> by_cases atJ : j = slot (2 ^ n) key o
    · rw [atI, atJ]
    · rw [atI, here, (off belowJ atJ).1] at same
      exact absurd same.symm (off belowJ atJ).2
    · rw [atJ, here, (off belowI atI).1] at same
      exact absurd same (off belowI atI).2
    · rw [(off belowI atI).1] at liveI same
      rw [(off belowJ atJ).1] at same
      exact arranged.unique belowI belowJ liveI same
  · by_cases atI : i = slot (2 ^ n) key o
    · rw [atI, here]
      refine ⟨o, within, rfl, fun p below => ?_⟩
      by_cases samePlace : slot (2 ^ n) key p = slot (2 ^ n) key o
      · rw [samePlace, here]; exact live.1
      · rw [Function.update_of_ne samePlace]; exact (before p below).2.1
    · rw [(off belowI atI).1] at liveI ⊢
      obtain ⟨q, belowQ, atQ, path⟩ := arranged.reach belowI liveI
      refine ⟨q, belowQ, atQ, fun p below => ?_⟩
      by_cases samePlace : slot (2 ^ n) (buckets i) p = slot (2 ^ n) key o
      · rw [samePlace, here]; exact live.1
      · rw [Function.update_of_ne samePlace]; exact path p below
  · by_cases atI : i = slot (2 ^ n) key o
    · rw [atI, here]
      cases o with
      | zero => rfl
      | succ o =>
        obtain ⟨other, liveFirst⟩ := before 0 (by omega)
        have first := arranged.spread large (slot_lt positive key 0) liveFirst
        exact absurd (slot_zero_injective large first) other
    · rw [(off belowI atI).1] at liveI ⊢
      exact arranged.spread large belowI liveI

theorem Represents.place {n : Nat} {buckets : Nat → Int32} {values : Nat → V} {m : Int32 → Option V}
    (rep : Represents n buckets values m) {key : Int32}
    (absent : ∀ i, i < 2 ^ n → buckets i ≠ key) {i : Nat} (within : i < 2 ^ n)
    (free : ¬ Live (buckets i)) (value : V) :
    Represents n (Function.update buckets i key) (Function.update values i value)
      (Function.update m key (some value)) := by
  intro other otherLive v
  by_cases same : other = key
  · subst other
    simp only [Function.update_self, Option.some.injEq]
    constructor
    · rintro rfl
      exact ⟨i, within, Function.update_self .., Function.update_self ..⟩
    · rintro ⟨j, below, atJ, stored⟩
      by_cases equal : j = i
      · rwa [equal, Function.update_self] at stored
      · rw [Function.update_of_ne equal] at atJ
        exact absurd atJ (absent j below)
  · rw [Function.update_of_ne same, rep other otherLive]
    refine exists_congr fun j => and_congr_right fun _ => ?_
    by_cases equal : j = i
    · subst j
      simp only [Function.update_self]
      exact ⟨fun stored => absurd (stored.1 ▸ otherLive) free, fun stored => absurd stored.1.symm same⟩
    · rw [Function.update_of_ne equal, Function.update_of_ne equal]

/-- The bucket of a removed key becomes empty only when the one after it is
empty, and otherwise a tombstone, so no other probe path is cut. -/
theorem Arranged.remove {n : Nat} {buckets : Nat → Int32} (arranged : Arranged n buckets) {key freed : Int32}
    {o : Nat} (dead : ¬ Live freed)
    (cut : freed = yachtNoKey → buckets (slot (2 ^ n) key (o + 1)) = yachtNoKey) :
    Arranged n (Function.update buckets (slot (2 ^ n) key o) freed) := by
  have kept {j : Nat} (live : Live (Function.update buckets (slot (2 ^ n) key o) freed j)) :
      j ≠ slot (2 ^ n) key o ∧ Function.update buckets (slot (2 ^ n) key o) freed j = buckets j := by
    have other : j ≠ slot (2 ^ n) key o := by
      rintro rfl
      rw [Function.update_self] at live
      exact dead live
    exact ⟨other, Function.update_of_ne other ..⟩
  refine ⟨fun {i j} belowI belowJ liveI same => ?_, fun {i} belowI liveI => ?_, fun large {i} belowI liveI => ?_⟩
  · have liveJ := liveI
    rw [same] at liveJ
    have valueI := (kept liveI).2
    rw [valueI] at liveI same
    rw [(kept liveJ).2] at same
    exact arranged.unique belowI belowJ liveI same
  · obtain ⟨otherI, valueI⟩ := kept liveI
    rw [valueI] at liveI ⊢
    obtain ⟨q, belowQ, atQ, path⟩ := arranged.reach belowI liveI
    refine ⟨q, belowQ, atQ, fun p below => ?_⟩
    by_cases samePlace : slot (2 ^ n) (buckets i) p = slot (2 ^ n) key o
    · rw [samePlace, Function.update_self]
      intro emptied
      have next : slot (2 ^ n) (buckets i) (p + 1) = slot (2 ^ n) key (o + 1) := by
        simp only [slot, ring_succ] at samePlace ⊢
        rw [samePlace]
      have hole := cut emptied
      rw [← next] at hole
      rcases Nat.lt_or_eq_of_le (show p + 1 ≤ q from below) with inside | last
      · exact path (p + 1) inside hole
      · rw [last, atQ] at hole
        exact liveI.1 hole
    · rw [Function.update_of_ne samePlace]
      exact path p below
  · have valueI := (kept liveI).2
    rw [valueI] at liveI ⊢
    exact arranged.spread large belowI liveI

theorem Represents.remove {n : Nat} {buckets : Nat → Int32} {values values' : Nat → V} {m : Int32 → Option V}
    (arranged : Arranged n buckets) (rep : Represents n buckets values m) {key freed : Int32} (live : Live key)
    {i : Nat} (within : i < 2 ^ n) (atKey : buckets i = key) (dead : ¬ Live freed)
    (frame : ∀ j, j ≠ i → values' j = values j) :
    Represents n (Function.update buckets i freed) values' (Function.update m key none) := by
  have here := live
  rw [← atKey] at here
  intro other otherLive v
  by_cases same : other = key
  · subst other
    simp only [Function.update_self, reduceCtorEq, false_iff, not_exists, not_and]
    intro j below atJ
    by_cases equal : j = i
    · rw [equal, Function.update_self] at atJ
      exact absurd (atJ ▸ live) dead
    · rw [Function.update_of_ne equal] at atJ
      exact absurd (arranged.unique within below here (atKey.trans atJ.symm)).symm equal
  · rw [Function.update_of_ne same, rep other otherLive]
    refine exists_congr fun j => and_congr_right fun _ => ?_
    by_cases equal : j = i
    · subst j
      rw [Function.update_self]
      exact ⟨fun stored => absurd (stored.1.symm.trans atKey) same,
        fun stored => absurd (stored.1 ▸ otherLive) dead⟩
    · rw [Function.update_of_ne equal, frame j equal]

end Kinetic
