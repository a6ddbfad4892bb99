import Kinetic.Threadpool.Delivery

namespace Kinetic
open Transition Function

/-- The worker has found the queue empty and has not been woken since. -/
def WorkerPc.resting : WorkerPc → Bool
  | .sleepTest => true
  | .sleepSet => true
  | .poll => true
  | _ => false

/-- A worker that only a notification can bring back: it rests and its alert pipe is empty. -/
def Dormant (p : Pool) (w : Worker) : Prop := w.pc.resting = true ∧ p.pipes w.pfd = 0

/-- `notify_new_task` can find the worker: its entry is among the live ones,
says that it sleeps and has its pipe. -/
def Findable (p : Pool) (w : Worker) : Prop :=
  w.slot < p.liveThreads ∧ (p.threads w.slot).status = .asleep ∧ (p.threads w.slot).parentFd = w.pfd

instance (p : Pool) (w : Worker) : Decidable (Dormant p w) := inferInstanceAs (Decidable (_ ∧ _))
instance (p : Pool) (w : Worker) : Decidable (Findable p w) := inferInstanceAs (Decidable (_ ∧ _))

/-- The thread is looking for a sleeping worker in `notify_new_task`. -/
def SchedPc.scanning : SchedPc → Bool
  | .notify _ _ => true
  | .notifyStatus _ _ => true
  | .notifyWrite _ _ => true
  | _ => false

/-- No step of the search for a sleeping worker falls between the moment in which a
worker finds the queue empty and the one from which on the search can find it. -/
def SettledScan (p : Pool) : PoolLabel → Prop
  | .sched i _ => (p.sched i).scanning = true → ∀ j < p.created, ∀ w ∈ p.workers j, Dormant p w → Findable p w
  | _ => True

instance (p : Pool) (label : PoolLabel) : Decidable (SettledScan p label) :=
  match label with
  | .call _ _ => inferInstanceAs (Decidable True)
  | .sched i _ => inferInstanceAs
      (Decidable ((p.sched i).scanning = true → ∀ j < p.created, ∀ w ∈ p.workers j, Dormant p w → Findable p w))
  | .worker _ _ => inferInstanceAs (Decidable True)

/-- A task has been committed, nobody is in `Threadpool_Schedule`, no
worker can be added, and all are blocked in `poll` with an empty pipe. -/
def LostWakeup (cfg : ThreadpoolConfig) (p : Pool) : Prop :=
  (∀ i, ∃ res, p.sched i = .idle res) ∧ p.ring.requestHead < p.ring.commitHead ∧
    p.liveThreads = (setDefaults cfg).maxThreads ∧ ∀ j w, p.workers j = some w → w.pc = .poll ∧ p.pipes w.pfd = 0

/-- The first entry that the thread has still to look at, for a thread that has
committed or may commit and has not finished its search. -/
def SchedPc.scanFrom : SchedPc → Option Nat
  | .loadCommit _ => some 0
  | .loadMark _ _ => some 0
  | .assertReserved _ _ => some 0
  | .casCommit _ _ => some 0
  | .assertRequest _ => some 0
  | .assertCommit _ _ => some 0
  | .notify _ k => some k
  | .notifyStatus _ k => some k
  | .notifyWrite _ k => some k
  | _ => none

/-- The thread has created a worker and not yet counted it. -/
def SchedPc.spawned : SchedPc → Bool
  | .spawnAwake _ _ => true
  | .adjLoad _ => true
  | .adjCas _ _ => true
  | _ => false

/-- The thread has no worker still to be counted and is not about to wake one. -/
def SchedPc.plain : SchedPc → Bool
  | .spawnAwake _ _ => false
  | .adjLoad _ => false
  | .adjCas _ _ => false
  | .notifyWrite _ _ => false
  | _ => true

theorem SchedPc.plain_not_spawned {pc : SchedPc} (plain : pc.plain = true) : pc.spawned = false := by
  cases pc <;> first | rfl | cases plain

theorem SchedPc.plain_not_notifyWrite {pc : SchedPc} (plain : pc.plain = true) (back k : Nat) : pc ≠ .notifyWrite back k := by
  rintro rfl
  cases plain

def Staffed (p : Pool) : Prop := ∃ j w, p.workers j = some w

def Awake (p : Pool) : Prop := ∃ j w, p.workers j = some w ∧ ¬ Dormant p w

/-- Somebody will see to the committed tasks: there are none, or a worker is awake, or a
thread in `Threadpool_Schedule` has all workers before it. A pool without workers needs nobody. -/
def Guarded (p : Pool) : Prop :=
  Awake p ∨ ¬ Staffed p ∨ p.ring.commitHead ≤ p.ring.requestHead ∨
    ∃ i k, (p.sched i).scanFrom = some k ∧ ∀ j w, p.workers j = some w → k ≤ w.slot

/-- The workers are those created so far. -/
def Bounded (p : Pool) : Prop := ∀ j w, p.workers j = some w → j < p.created

structure WakeInv (p : Pool) : Prop where
  loaded : ∀ j w q, p.workers j = some w → w.pc = .testCommit q → q ≤ p.ring.requestHead
  live : p.liveThreads ≠ 0 → Staffed p
  spawned : ∀ i, (p.sched i).spawned = true → Staffed p
  asleep : ∀ k, (p.threads k).status = .asleep → ∃ j w, p.workers j = some w ∧ w.slot = k
  target : ∀ i back k, p.sched i = .notifyWrite back k → ∃ j w, p.workers j = some w ∧ w.slot = k
  guarded : Guarded p

section Sched
variable {cfg : ThreadpoolConfig} {p p' : Pool} {i : Nat} {pc : SchedPc}

theorem Awake.of_pipes (awake : Awake p) (workers : p'.workers = p.workers) (pipes : ∀ fd, p.pipes fd ≤ p'.pipes fd) :
    Awake p' := by
  obtain ⟨j, w, found, restless⟩ := awake
  refine ⟨j, w, by rw [workers]; exact found, fun dormant => restless ⟨dormant.1, ?_⟩⟩
  exact Nat.eq_zero_of_le_zero (Nat.le_trans (pipes _) (Nat.le_of_eq dormant.2))

theorem staffed_congr (workers : p'.workers = p.workers) : Staffed p' ↔ Staffed p := by
  unfold Staffed
  rw [workers]

/-- `handOver` is what a thread owes when it was the one to see to the committed tasks. -/
theorem Guarded.sched_move (guarded : Guarded p) (sched : p'.sched = update p.sched i pc) (workers : p'.workers = p.workers)
    (request : p'.ring.requestHead = p.ring.requestHead) (commit : p'.ring.commitHead = p.ring.commitHead)
    (pipes : ∀ fd, p.pipes fd ≤ p'.pipes fd)
    (handOver : ∀ k, (p.sched i).scanFrom = some k → Staffed p →
      (∀ j w, p.workers j = some w → k ≤ w.slot ∧ Dormant p w) →
      Awake p' ∨ ∃ k, pc.scanFrom = some k ∧ ∀ j w, p.workers j = some w → k ≤ w.slot) : Guarded p' := by
  by_cases before : Awake p
  · exact Or.inl (before.of_pipes workers pipes)
  by_cases staffed : Staffed p
  · rcases guarded with now | empty | idle | ⟨k, entry, scan, ahead⟩
    · exact absurd now before
    · exact absurd staffed empty
    · rw [← request, ← commit] at idle
      exact Or.inr (Or.inr (Or.inl idle))
    · by_cases same : k = i
      · subst k
        have dormant (j : Nat) (w : Worker) (found : p.workers j = some w) : entry ≤ w.slot ∧ Dormant p w :=
          ⟨ahead j w found, not_not.mp fun restless => before ⟨j, w, found, restless⟩⟩
        rcases handOver entry scan staffed dormant with now | ⟨next, scan', ahead'⟩
        · exact Or.inl now
        · refine Or.inr (Or.inr (Or.inr ⟨i, next, ?_, by rw [workers]; exact ahead'⟩))
          rw [sched, update_self]
          exact scan'
      · refine Or.inr (Or.inr (Or.inr ⟨k, entry, ?_, by rw [workers]; exact ahead⟩))
        rw [sched, update_of_ne same]
        exact scan
  · exact Or.inr (Or.inl fun now => staffed ((staffed_congr workers).mp now))

/-- A step in `Threadpool_Schedule` that neither commits nor creates a worker. -/
theorem WakeInv.sched_move (inv : WakeInv p) (sched : p'.sched = update p.sched i pc) (workers : p'.workers = p.workers)
    (request : p'.ring.requestHead = p.ring.requestHead)
    (commit : p'.ring.commitHead = p.ring.commitHead) (pipes : ∀ fd, p.pipes fd ≤ p'.pipes fd)
    (status : ∀ k, (p'.threads k).status = .asleep → (p.threads k).status = .asleep)
    (live : p'.liveThreads ≠ 0 → Staffed p) (spawned : pc.spawned = true → Staffed p)
    (target : ∀ back k, pc = .notifyWrite back k → ∃ j w, p.workers j = some w ∧ w.slot = k)
    (handOver : ∀ k, (p.sched i).scanFrom = some k → Staffed p →
      (∀ j w, p.workers j = some w → k ≤ w.slot ∧ Dormant p w) →
      Awake p' ∨ ∃ k, pc.scanFrom = some k ∧ ∀ j w, p.workers j = some w → k ≤ w.slot) : WakeInv p' := by
  have same := staffed_congr workers
  refine ⟨?_, fun some => same.mpr (live some), ?_, ?_, ?_, ?_⟩
  · rw [workers, request]
    exact inv.loaded
  · intro k seen
    rw [sched] at seen
    by_cases here : k = i
    · subst k
      rw [update_self] at seen
      exact same.mpr (spawned seen)
    · rw [update_of_ne here] at seen
      exact same.mpr (inv.spawned k seen)
  · intro k seen
    rw [workers]
    exact inv.asleep k (status k seen)
  · intro k back entry seen
    rw [sched] at seen
    rw [workers]
    by_cases here : k = i
    · subst k
      rw [update_self] at seen
      exact target back entry seen
    · rw [update_of_ne here] at seen
      exact inv.target k back entry seen
  · exact inv.guarded.sched_move sched workers request commit pipes handOver

/-- A step that touches the ring buffer or a `thread_info` without putting any worker to sleep, of a thread
that does not see to committed tasks. -/
theorem WakeInv.sched_write {now : SchedPc} (inv : WakeInv p) (here : p.sched i = now) (busy : now.scanFrom = none)
    (sched : p'.sched = update p.sched i pc) (workers : p'.workers = p.workers)
    (request : p'.ring.requestHead = p.ring.requestHead) (commit : p'.ring.commitHead = p.ring.commitHead)
    (pipes : p'.pipes = p.pipes) (status : ∀ k, (p'.threads k).status = .asleep → (p.threads k).status = .asleep)
    (live : p'.liveThreads ≠ 0 → Staffed p) (next : pc.plain = true ∨ pc.scanFrom = none ∧ Staffed p) : WakeInv p' := by
  refine inv.sched_move sched workers request commit (fun fd => Nat.le_of_eq (by rw [pipes])) status live ?_ ?_ ?_
  · intro spawned
    rcases next with plain | ⟨_, staffed⟩
    · rw [SchedPc.plain_not_spawned plain] at spawned
      cases spawned
    · exact staffed
  · rintro back k rfl
    rcases next with plain | ⟨scan, _⟩
    · cases plain
    · cases scan
  · intro k scan
    rw [here, busy] at scan
    cases scan

/-- A step of a thread that does not see to committed tasks and only moves on. -/
theorem WakeInv.sched_goto {now : SchedPc} (inv : WakeInv p) (here : p.sched i = now) (busy : now.scanFrom = none)
    (next : pc.plain = true ∨ pc.scanFrom = none ∧ Staffed p) : WakeInv (p.goto i pc) :=
  inv.sched_write here busy rfl rfl rfl rfl rfl (fun _ seen => seen) inv.live next

/-- A step of a thread that goes on to look at the workers from the first one on. -/
theorem WakeInv.sched_scan (inv : WakeInv p) (scan : pc.scanFrom = some 0) (plain : pc.plain = true) :
    WakeInv (p.goto i pc) :=
  inv.sched_move rfl rfl rfl rfl (fun _ => Nat.le_refl _) (fun _ seen => seen) inv.live
    (fun created => by rw [SchedPc.plain_not_spawned plain] at created; cases created)
    (fun back k same => absurd same (SchedPc.plain_not_notifyWrite plain back k))
    fun _ _ _ _ => Or.inr ⟨0, scan, fun _ _ _ => Nat.zero_le _⟩

theorem WakeInv.sched_commit (inv : WakeInv p) {back : Nat} :
    WakeInv ({ p with ring := { p.ring with commitHead := p.ring.commitHead + 1 } }.goto i (.assertRequest back)) := by
  have scan : ({ p with ring := { p.ring with commitHead := p.ring.commitHead + 1 } }.goto i (.assertRequest back)).sched i =
      .assertRequest back := update_self ..
  refine ⟨inv.loaded, inv.live, fun k seen => ?_, inv.asleep, fun k back' entry seen => ?_,
    Or.inr (Or.inr (Or.inr ⟨i, 0, by rw [scan]; rfl, fun _ _ _ => Nat.zero_le _⟩))⟩
  · by_cases same : k = i
    · subst k
      rw [scan] at seen
      cases seen
    · exact inv.spawned k ((congrArg SchedPc.spawned (update_of_ne same _ _)).symm.trans seen)
  · by_cases same : k = i
    · subst k
      rw [scan] at seen
      cases seen
    · exact inv.target k back' entry ((update_of_ne same _ _).symm.trans seen)

end Sched

end Kinetic
