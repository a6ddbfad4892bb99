import Kinetic.Threadpool.Facts

namespace Kinetic
open Ring Function

def TaskRing.heads (ring : TaskRing) : Heads := ⟨ring.reserveHead, ring.commitHead, ring.requestHead, ring.releaseHead⟩

/-- The ring buffer is in the state that the phases of its indices describe. -/
def RingValid (cfg : ThreadpoolConfig) (fits : (setDefaults cfg).taskRingbufSize2 ≤ threadpoolMaxRingbufSize2)
    (ring : TaskRing) (phase : Nat → Phase Nat Nat) : Prop :=
  Valid (ringLayout cfg fits) ring.heads phase ring.tasks fun r => ring.reserved[r]?

/-- The invariant of the pool, for the phases that the indices of its ring buffer are in. -/
structure PoolInv (cfg : ThreadpoolConfig) (fits : (setDefaults cfg).taskRingbufSize2 ≤ threadpoolMaxRingbufSize2)
    (p : Pool) (phase : Nat → Phase Nat Nat) : Prop where
  valid : RingValid cfg fits p.ring phase
  sched : ∀ i, SchedFacts cfg p.ring phase i (p.sched i)
  worker : ∀ j w, p.workers j = some w → WorkerFacts p.ring phase j w.pc
  reserved : p.ring.reserved.length = p.ring.reserveHead
  claims : p.claims.map Prod.fst = List.range p.ring.requestHead
  executed : ∀ e ∈ p.executed, ∃ t, p.ring.reserved[e.1]? = some t ∧ t.task = e.2.1 ∧ t.udata = e.2.2
  running : p.failed = false

section Ring
variable {cfg : ThreadpoolConfig} {fits : (setDefaults cfg).taskRingbufSize2 ≤ threadpoolMaxRingbufSize2}
variable {ring : TaskRing} {phase : Nat → Phase Nat Nat} {r : Nat} {x : MarkedTask}

theorem TaskRing.at_eq (ring : TaskRing) (cfg : ThreadpoolConfig) (r : Nat) :
    ring.at cfg r = ring.tasks (r % cfg.ringbufSize) := by
  unfold TaskRing.at
  rw [slot_eq]

theorem TaskRing.write_tasks (ring : TaskRing) (cfg : ThreadpoolConfig) (r : Nat) (x : MarkedTask) :
    (ring.write cfg r x).tasks = update ring.tasks (r % cfg.ringbufSize) x := by
  unfold TaskRing.write
  rw [slot_eq]

theorem TaskRing.write_at (ring : TaskRing) (cfg : ThreadpoolConfig) (r : Nat) (x : MarkedTask) :
    (ring.write cfg r x).at cfg r = x := by
  unfold TaskRing.write TaskRing.at
  exact update_self ..

/-- An index held by some thread is in the window of the ring. -/
theorem RingValid.held_window (valid : RingValid cfg fits ring phase) {actor : Actor} (held : heldBy (phase r) = some actor) :
    ring.releaseHead ≤ r ∧ r < ring.releaseHead + cfg.ringbufSize := by
  have room : ring.reserveHead + 2 ≤ ring.releaseHead + cfg.ringbufSize := valid.room
  have release : ring.releaseHead ≤ ring.commitHead := valid.release_le_commit
  have request : ring.requestHead ≤ ring.reserveHead := valid.request_le_reserve
  cases now : phase r with
  | reserved i =>
    have bounds : ring.commitHead ≤ r ∧ r < ring.reserveHead := valid.reserved_bounds now
    omega
  | claimed j =>
    have bounds : ring.releaseHead ≤ r ∧ r < ring.requestHead := valid.claimed_bounds now
    omega
  | _ => rw [now] at held; cases held

/-- A thread that rewrites the cell of an index it holds leaves the other held indices alone. -/
theorem RingValid.later_write (valid : RingValid cfg fits ring phase) {actor : Actor} (held : heldBy (phase r) = some actor)
    {next : Phase Nat Nat} (rank : (phase r).rank ≤ next.rank) :
    Later cfg actor ring phase (ring.write cfg r x) (update phase r next) := by
  refine ⟨Nat.le_refl _, Nat.le_refl _, Nat.le_refl _, Nat.le_refl _, rank_le_update rank,
    fun s other held' apart => ?_, fun _ _ stored => stored⟩
  have different : s ≠ r := by
    intro same
    subst s
    exact apart (Option.some.inj (held'.symm.trans held))
  have window := valid.held_window held
  have window' := valid.held_window held'
  have cells : s % cfg.ringbufSize ≠ r % cfg.ringbufSize := fun equal =>
    different (slot_injective window'.1 window'.2 window.1 window.2 equal)
  rw [update_of_ne different, TaskRing.at_eq, TaskRing.at_eq, TaskRing.write_tasks, update_of_ne cells]
  exact ⟨rfl, rfl⟩

/-- The phase of an index that nobody holds advances, the heads and the reserved tasks with it. -/
theorem later_advance {actor : Actor} {ring' : TaskRing} {next : Phase Nat Nat} (rank : (phase r).rank ≤ next.rank)
    (loose : heldBy (phase r) = none) (reserve : ring.reserveHead ≤ ring'.reserveHead)
    (commit : ring.commitHead ≤ ring'.commitHead) (request : ring.requestHead ≤ ring'.requestHead)
    (release : ring.releaseHead ≤ ring'.releaseHead) (tasks : ring'.tasks = ring.tasks)
    (reserved : ∀ (r : Nat) t, ring.reserved[r]? = some t → ring'.reserved[r]? = some t) :
    Later cfg actor ring phase ring' (update phase r next) := by
  refine ⟨reserve, commit, request, release, rank_le_update rank, fun s other held _ => ?_, reserved⟩
  have different : s ≠ r := by
    intro same
    subst s
    rw [loose] at held
    cases held
  rw [update_of_ne different]
  unfold TaskRing.at
  rw [tasks]
  exact ⟨rfl, rfl⟩

theorem later_heads {actor : Actor} {ring' : TaskRing} (reserve : ring.reserveHead ≤ ring'.reserveHead)
    (commit : ring.commitHead ≤ ring'.commitHead) (request : ring.requestHead ≤ ring'.requestHead)
    (release : ring.releaseHead ≤ ring'.releaseHead) (tasks : ring'.tasks = ring.tasks)
    (reserved : ring'.reserved = ring.reserved) : Later cfg actor ring phase ring' phase := by
  refine ⟨reserve, commit, request, release, fun _ => Nat.le_refl _, fun r _ _ _ => ⟨rfl, ?_⟩, ?_⟩
  · unfold TaskRing.at
    rw [tasks]
  · rw [reserved]
    exact fun _ _ stored => stored

end Ring

section Frame
variable {cfg : ThreadpoolConfig} {fits : (setDefaults cfg).taskRingbufSize2 ≤ threadpoolMaxRingbufSize2}
variable {p p' : Pool} {phase phase' : Nat → Phase Nat Nat}

/-- A step of a thread in `Threadpool_Schedule` keeps the invariant if the ring stays valid, nothing of the
other threads is touched, and the thread gets where it may be. -/
theorem PoolInv.sched_step {i : Nat} {pc : SchedPc} (inv : PoolInv cfg fits p phase)
    (valid : RingValid cfg fits p'.ring phase') (later : Later cfg (.sched i) p.ring phase p'.ring phase')
    (sched : p'.sched = update p.sched i pc) (facts : SchedFacts cfg p'.ring phase' i pc)
    (reserved : p'.ring.reserved.length = p'.ring.reserveHead) (request : p'.ring.requestHead = p.ring.requestHead)
    (workers : ∀ j w, p'.workers j = some w → p.workers j = some w ∨ w.pc = .start)
    (claims : p'.claims = p.claims) (executed : p'.executed = p.executed) (failed : p'.failed = p.failed) :
    PoolInv cfg fits p' phase' := by
  refine ⟨valid, fun k => ?_, fun j w found => ?_, reserved, ?_, ?_, failed.trans inv.running⟩
  · rw [sched]
    by_cases same : k = i
    · subst k
      rw [update_self]
      exact facts
    · rw [update_of_ne same]
      exact (inv.sched k).later later (by simpa using same)
  · rcases workers j w found with old | new
    · exact (inv.worker j w old).later later (by simp)
    · rw [new]
      trivial
  · rw [claims, request]
    exact inv.claims
  · rw [executed]
    intro e member
    obtain ⟨t, stored, same⟩ := inv.executed e member
    exact ⟨t, later.reserved _ t stored, same⟩

/-- The same for a step that leaves the ring buffer alone. -/
theorem PoolInv.sched_silent {i : Nat} {pc : SchedPc} (inv : PoolInv cfg fits p phase) (ring : p'.ring = p.ring)
    (sched : p'.sched = update p.sched i pc) (facts : SchedFacts cfg p.ring phase i pc)
    (workers : ∀ j w, p'.workers j = some w → p.workers j = some w ∨ w.pc = .start)
    (claims : p'.claims = p.claims) (executed : p'.executed = p.executed) (failed : p'.failed = p.failed) :
    PoolInv cfg fits p' phase :=
  inv.sched_step (by rw [ring]; exact inv.valid) (by rw [ring]; exact .refl ..) sched (by rw [ring]; exact facts)
    (by rw [ring]; exact inv.reserved) (by rw [ring]) workers claims executed failed

theorem PoolInv.sched_goto {i : Nat} {pc : SchedPc} (inv : PoolInv cfg fits p phase)
    (facts : SchedFacts cfg p.ring phase i pc) : PoolInv cfg fits (p.goto i pc) phase :=
  inv.sched_silent rfl rfl facts (fun _ _ found => Or.inl found) rfl rfl rfl

theorem PoolInv.worker_step {j : Nat} {w : Worker} (inv : PoolInv cfg fits p phase)
    (valid : RingValid cfg fits p'.ring phase') (later : Later cfg (.worker j) p.ring phase p'.ring phase')
    (workers : p'.workers = update p.workers j (some w)) (facts : WorkerFacts p'.ring phase' j w.pc)
    (reserved : p'.ring.reserved = p.ring.reserved)
    (reserve : p'.ring.reserveHead = p.ring.reserveHead) (claims : p'.claims.map Prod.fst = List.range p'.ring.requestHead)
    (sched : p'.sched = p.sched)
    (executed : ∀ e ∈ p'.executed, e ∈ p.executed ∨ ∃ t, p.ring.reserved[e.1]? = some t ∧ t.task = e.2.1 ∧ t.udata = e.2.2)
    (failed : p'.failed = p.failed) : PoolInv cfg fits p' phase' := by
  refine ⟨valid, fun k => ?_, fun k v found => ?_, ?_, claims, fun e member => ?_, failed.trans inv.running⟩
  · rw [sched]
    exact (inv.sched k).later later (by simp)
  · rw [workers] at found
    by_cases same : k = j
    · subst k
      rw [update_self] at found
      cases found
      exact facts
    · rw [update_of_ne same] at found
      exact (inv.worker k v found).later later (by simpa using same)
  · rw [reserved, reserve]
    exact inv.reserved
  · rw [reserved]
    rcases executed e member with old | new
    · exact inv.executed e old
    · exact new

theorem PoolInv.worker_silent {j : Nat} {w : Worker} (inv : PoolInv cfg fits p phase) (ring : p'.ring = p.ring)
    (workers : p'.workers = update p.workers j (some w)) (facts : WorkerFacts p.ring phase j w.pc)
    (sched : p'.sched = p.sched) (claims : p'.claims = p.claims)
    (executed : p'.executed = p.executed) (failed : p'.failed = p.failed) : PoolInv cfg fits p' phase :=
  inv.worker_step (by rw [ring]; exact inv.valid) (by rw [ring]; exact .refl ..) workers (by rw [ring]; exact facts)
    (by rw [ring]) (by rw [ring]) (by rw [ring, claims]; exact inv.claims) sched
    (by rw [executed]; exact fun _ member => Or.inl member) failed

theorem PoolInv.worker_goto {j : Nat} {w : Worker} (inv : PoolInv cfg fits p phase)
    (facts : WorkerFacts p.ring phase j w.pc) : PoolInv cfg fits (p.setWorker j w) phase :=
  inv.worker_silent rfl rfl facts rfl rfl rfl rfl

end Frame

end Kinetic
