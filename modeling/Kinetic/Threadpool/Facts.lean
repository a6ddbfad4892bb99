import Kinetic.Lib.Ring
import Kinetic.Threadpool.Model

namespace Kinetic
open Ring

theorem ringbufSize_bounds {cfg : ThreadpoolConfig} (fits : (setDefaults cfg).taskRingbufSize2 ≤ threadpoolMaxRingbufSize2) :
    2 ≤ cfg.ringbufSize ∧ cfg.ringbufSize % 2 = 0 ∧ cfg.ringbufSize ≤ sizeRange - 1 := by
  have positive : (setDefaults cfg).taskRingbufSize2 ≠ 0 := by
    unfold setDefaults
    dsimp only
    split
    · decide
    · assumption
  obtain ⟨n, size2⟩ := Nat.exists_eq_succ_of_ne_zero positive
  have size : cfg.ringbufSize = 2 * 2 ^ n := by
    unfold ThreadpoolConfig.ringbufSize
    rw [size2, Nat.pow_succ, Nat.mul_comm]
  have least : 0 < 2 ^ n := Nat.two_pow_pos n
  have most : 2 ^ n ≤ 2 ^ threadpoolMaxRingbufSize2 := Nat.pow_le_pow_right (by decide) (by omega)
  have range : 2 * 2 ^ threadpoolMaxRingbufSize2 ≤ sizeRange - 1 := by decide
  omega

/-- The marks of the ring buffer: an index for a committed task, its complement for a released one. -/
def ringLayout (cfg : ThreadpoolConfig) (fits : (setDefaults cfg).taskRingbufSize2 ≤ threadpoolMaxRingbufSize2) :
    Layout MarkedTask ThreadpoolTask where
  size := cfg.ringbufSize
  limit := sizeRange - 1
  mark := MarkedTask.mark
  content := MarkedTask.toThreadpoolTask
  two_le_size := (ringbufSize_bounds fits).1
  size_even := (ringbufSize_bounds fits).2.1
  limit_odd := by decide
  size_le_limit := (ringbufSize_bounds fits).2.2

theorem slot_eq (cfg : ThreadpoolConfig) (index : Nat) : cfg.slot index = index % cfg.ringbufSize :=
  Nat.and_two_pow_sub_one_eq_mod index _

theorem sizeSub_eq {a b : Nat} (le : b ≤ a) (small : a < sizeRange) : sizeSub a b = a - b := by
  unfold sizeSub sizeRange at *
  omega

/-- Who holds an index: the caller that reserved it or the worker that claimed it. -/
inductive Actor
  | sched (i : Nat)
  | worker (j : Nat)
  deriving DecidableEq

def heldBy : Phase Nat Nat → Option Actor
  | .reserved i => some (.sched i)
  | .claimed j => some (.worker j)
  | _ => none

/-- What a thread in `Threadpool_Schedule` relies on. -/
def SchedFacts (cfg : ThreadpoolConfig) (ring : TaskRing) (phase : Nat → Phase Nat Nat) (i : Nat) : SchedPc → Prop
  | .casReserve _ wh rh => rh ≤ ring.releaseHead ∧ sizeSub wh rh < cfg.ringbufSize - 1 - 1
  | .assertReserve task wh _ => phase wh = .reserved i ∧ ring.reserved[wh]? = some task
  | .assertRelease task wh _ reserve =>
    (phase wh = .reserved i ∧ ring.reserved[wh]? = some task) ∧ wh < reserve ∧ reserve ≤ ring.reserveHead
  | .writeTask task wh _ => phase wh = .reserved i ∧ ring.reserved[wh]? = some task
  | .writeCleanup task wh _ =>
    (phase wh = .reserved i ∧ ring.reserved[wh]? = some task) ∧ (ring.at cfg wh).task = task.task
  | .writeUdata task wh _ =>
    (phase wh = .reserved i ∧ ring.reserved[wh]? = some task) ∧ (ring.at cfg wh).task = task.task ∧
      (ring.at cfg wh).cleanup = task.cleanup
  | .writeMark task wh _ =>
    (phase wh = .reserved i ∧ ring.reserved[wh]? = some task) ∧ (ring.at cfg wh).toThreadpoolTask = task
  | .loadMark _ ch => ch ≤ ring.commitHead
  | .assertReserved _ ch => 2 ≤ (phase ch).rank
  | .casCommit _ ch => 2 ≤ (phase ch).rank
  | .assertCommit _ request => request ≤ ring.commitHead
  | _ => True

/-- What a worker relies on. -/
def WorkerFacts (ring : TaskRing) (phase : Nat → Phase Nat Nat) (j : Nat) : WorkerPc → Prop
  | .claimRequest ch => 0 < ch ∧ ch ≤ ring.commitHead
  | .claimCas rh => rh < ring.commitHead
  | .assertMark rh => phase rh = .claimed j
  | .copyTask rh => phase rh = .claimed j
  | .copyCleanup rh task => phase rh = .claimed j ∧ ∃ t, ring.reserved[rh]? = some t ∧ t.task = task
  | .copyUdata rh task cleanup =>
    phase rh = .claimed j ∧ ∃ t, ring.reserved[rh]? = some t ∧ t.task = task ∧ t.cleanup = cleanup
  | .releaseMark rh task => phase rh = .claimed j ∧ ring.reserved[rh]? = some task
  | .loadRelease rh task => ring.reserved[rh]? = some task ∧ 0 < ring.requestHead
  | .loadReleased rh task relh => ring.reserved[rh]? = some task ∧ 0 < ring.requestHead ∧ relh ≤ ring.releaseHead
  | .casRelease rh task relh => ring.reserved[rh]? = some task ∧ 0 < ring.requestHead ∧ phase relh = .released
  | .assertReleased rh task relh => ring.reserved[rh]? = some task ∧ 0 < ring.requestHead ∧ relh < ring.commitHead
  | .run rh task => ring.reserved[rh]? = some task
  | _ => True

/-- What a step of one thread leaves to the others: heads and phases only
advance, and an index held by another thread keeps its phase and its cell. -/
structure Later (cfg : ThreadpoolConfig) (actor : Actor) (ring : TaskRing) (phase : Nat → Phase Nat Nat)
    (ring' : TaskRing) (phase' : Nat → Phase Nat Nat) : Prop where
  reserve : ring.reserveHead ≤ ring'.reserveHead
  commit : ring.commitHead ≤ ring'.commitHead
  request : ring.requestHead ≤ ring'.requestHead
  release : ring.releaseHead ≤ ring'.releaseHead
  rank : ∀ r, (phase r).rank ≤ (phase' r).rank
  held : ∀ r other, heldBy (phase r) = some other → other ≠ actor →
    phase' r = phase r ∧ ring'.at cfg r = ring.at cfg r
  reserved : ∀ (r : Nat) t, ring.reserved[r]? = some t → ring'.reserved[r]? = some t

section Stability
variable {cfg : ThreadpoolConfig} {actor : Actor} {ring ring' : TaskRing} {phase phase' : Nat → Phase Nat Nat}

theorem Later.released (later : Later cfg actor ring phase ring' phase') {r : Nat} (released : phase r = .released) :
    phase' r = .released := by
  have rank := later.rank r
  rw [released] at rank
  cases now : phase' r with
  | released => rfl
  | _ =>
    rw [now] at rank
    simp [Phase.rank] at rank

theorem Later.owned (later : Later cfg actor ring phase ring' phase') {i r : Nat} {task : ThreadpoolTask}
    (other : Actor.sched i ≠ actor) (owns : phase r = .reserved i ∧ ring.reserved[r]? = some task) :
    (phase' r = .reserved i ∧ ring'.reserved[r]? = some task) ∧ ring'.at cfg r = ring.at cfg r := by
  obtain ⟨same, cell⟩ := later.held r (.sched i) (by rw [owns.1]; rfl) other
  exact ⟨⟨same.trans owns.1, later.reserved r task owns.2⟩, cell⟩

theorem Later.claimed (later : Later cfg actor ring phase ring' phase') {j r : Nat} (other : Actor.worker j ≠ actor)
    (claimed : phase r = .claimed j) : phase' r = .claimed j :=
  (later.held r (.worker j) (by rw [claimed]; rfl) other).1.trans claimed

theorem SchedFacts.later {i : Nat} {pc : SchedPc} (facts : SchedFacts cfg ring phase i pc)
    (later : Later cfg actor ring phase ring' phase') (other : Actor.sched i ≠ actor) :
    SchedFacts cfg ring' phase' i pc := by
  cases pc with
  | casReserve task wh rh => exact ⟨Nat.le_trans facts.1 later.release, facts.2⟩
  | assertReserve task wh back => exact (later.owned other facts).1
  | assertRelease task wh back reserve =>
    exact ⟨(later.owned other facts.1).1, facts.2.1, Nat.le_trans facts.2.2 later.reserve⟩
  | writeTask task wh back => exact (later.owned other facts).1
  | writeCleanup task wh back =>
    obtain ⟨owns, cell⟩ := later.owned other facts.1
    exact ⟨owns, by rw [cell]; exact facts.2⟩
  | writeUdata task wh back =>
    obtain ⟨owns, cell⟩ := later.owned other facts.1
    exact ⟨owns, by rw [cell]; exact facts.2⟩
  | writeMark task wh back =>
    obtain ⟨owns, cell⟩ := later.owned other facts.1
    exact ⟨owns, by rw [cell]; exact facts.2⟩
  | loadMark back ch => exact Nat.le_trans facts later.commit
  | assertReserved back ch => exact Nat.le_trans facts (later.rank ch)
  | casCommit back ch => exact Nat.le_trans facts (later.rank ch)
  | assertCommit back request => exact Nat.le_trans facts later.commit
  | _ => trivial

theorem WorkerFacts.later {j : Nat} {pc : WorkerPc} (facts : WorkerFacts ring phase j pc)
    (later : Later cfg actor ring phase ring' phase') (other : Actor.worker j ≠ actor) : WorkerFacts ring' phase' j pc := by
  have positive (claims : 0 < ring.requestHead) : 0 < ring'.requestHead := Nat.lt_of_lt_of_le claims later.request
  cases pc with
  | claimRequest ch => exact ⟨facts.1, Nat.le_trans facts.2 later.commit⟩
  | claimCas rh => exact Nat.lt_of_lt_of_le facts later.commit
  | assertMark rh => exact later.claimed other facts
  | copyTask rh => exact later.claimed other facts
  | copyCleanup rh task =>
    obtain ⟨claimed, t, stored, rest⟩ := facts
    exact ⟨later.claimed other claimed, t, later.reserved rh t stored, rest⟩
  | copyUdata rh task cleanup =>
    obtain ⟨claimed, t, stored, rest⟩ := facts
    exact ⟨later.claimed other claimed, t, later.reserved rh t stored, rest⟩
  | releaseMark rh task => exact ⟨later.claimed other facts.1, later.reserved rh task facts.2⟩
  | loadRelease rh task => exact ⟨later.reserved rh task facts.1, positive facts.2⟩
  | loadReleased rh task relh =>
    exact ⟨later.reserved rh task facts.1, positive facts.2.1, Nat.le_trans facts.2.2 later.release⟩
  | casRelease rh task relh =>
    exact ⟨later.reserved rh task facts.1, positive facts.2.1, later.released facts.2.2⟩
  | assertReleased rh task relh =>
    exact ⟨later.reserved rh task facts.1, positive facts.2.1, Nat.lt_of_lt_of_le facts.2.2 later.commit⟩
  | run rh task => exact later.reserved rh task facts
  | _ => trivial

theorem Later.refl (cfg : ThreadpoolConfig) (actor : Actor) (ring : TaskRing) (phase : Nat → Phase Nat Nat) :
    Later cfg actor ring phase ring phase :=
  ⟨Nat.le_refl _, Nat.le_refl _, Nat.le_refl _, Nat.le_refl _, fun _ => Nat.le_refl _, fun _ _ _ _ => ⟨rfl, rfl⟩,
    fun _ _ stored => stored⟩

end Stability

end Kinetic
