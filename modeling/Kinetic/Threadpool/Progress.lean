import Kinetic.Lib.Crowd
import Kinetic.Threadpool.WakeupWorkers

namespace Kinetic
open Ring Function Crowd

/-- The index that a worker has claimed and whose task it has still to run. -/
def WorkerPc.holding : WorkerPc → Option Nat
  | .assertMark rh => some rh
  | .copyTask rh => some rh
  | .copyCleanup rh _ => some rh
  | .copyUdata rh _ _ => some rh
  | .releaseMark rh _ => some rh
  | .loadRelease rh _ => some rh
  | .loadReleased rh _ _ => some rh
  | .casRelease rh _ _ => some rh
  | .assertReleased rh _ _ => some rh
  | .run rh _ => some rh
  | _ => none

/-- The cell of index `r`, which is not below `low`, has the task of the call that reserved `r`. -/
def TaskRing.Intact (cfg : ThreadpoolConfig) (low : Nat) (ring : TaskRing) (r : Nat) : Prop :=
  low ≤ r ∧ ring.reserved[r]? = some (ring.at cfg r).toThreadpoolTask

/-- What a worker relies on as long as nobody writes to the cells: the cell of
an index it has claimed is intact until it has copied the task. -/
def CopyFacts (cfg : ThreadpoolConfig) (low : Nat) (ring : TaskRing) : WorkerPc → Prop
  | .claimRequest ch => 0 < ch ∧ ch ≤ ring.commitHead
  | .claimCas rh => rh < ring.commitHead
  | .assertMark rh => ring.Intact cfg low rh
  | .copyTask rh => ring.Intact cfg low rh
  | .copyCleanup rh task => ring.Intact cfg low rh ∧ (ring.at cfg rh).task = task
  | .copyUdata rh task cleanup =>
    ring.Intact cfg low rh ∧ (ring.at cfg rh).task = task ∧ (ring.at cfg rh).cleanup = cleanup
  | .releaseMark rh task => ring.reserved[rh]? = some task
  | .loadRelease rh task => ring.reserved[rh]? = some task
  | .loadReleased rh task _ => ring.reserved[rh]? = some task
  | .casRelease rh task _ => ring.reserved[rh]? = some task
  | .assertReleased rh task _ => ring.reserved[rh]? = some task
  | .run rh task => ring.reserved[rh]? = some task
  | _ => True

/-- What a step of worker `j` can do to the pool. -/
inductive WorkerMove (cfg : ThreadpoolConfig) (p : Pool) (j : Nat) (w : Worker) : Pool → Prop
  | fail : WorkerMove cfg p j w p.fail
  | silent (threads : Nat → ThreadInfo) (pipes : Nat → Nat) (v : Worker) : v.slot = w.slot →
      v.pc.holding = w.pc.holding → (∀ low, CopyFacts cfg low p.ring w.pc → CopyFacts cfg low p.ring v.pc) →
      WorkerMove cfg p j w ({ p with threads := threads, pipes := pipes }.setWorker j v)
  | claim : w.pc = .claimCas p.ring.requestHead →
      WorkerMove cfg p j w ({ p with ring := { p.ring with requestHead := p.ring.requestHead + 1 },
                                     claims := p.claims ++ [(p.ring.requestHead, j)] }.setWorker j
        { w with pc := .assertMark p.ring.requestHead })
  | mark (rh : Nat) (task : ThreadpoolTask) : w.pc = .releaseMark rh task →
      WorkerMove cfg p j w ({ p with ring := p.ring.write cfg rh { p.ring.at cfg rh with mark := sizeNot rh } }.setWorker j
        { w with pc := .loadRelease rh task })
  | release (rh : Nat) (task : ThreadpoolTask) : w.pc = .casRelease rh task p.ring.releaseHead →
      WorkerMove cfg p j w ({ p with ring := { p.ring with releaseHead := p.ring.releaseHead + 1 } }.setWorker j
        { w with pc := .assertReleased rh task p.ring.releaseHead })
  | run (rh : Nat) (task : ThreadpoolTask) : w.pc = .run rh task →
      WorkerMove cfg p j w ({ p with executed := p.executed ++ [(rh, task.task, task.udata)] }.setWorker j
        { w with pc := .testRequest })

section Moves
variable {cfg : ThreadpoolConfig} {p p' : Pool} {j : Nat} {w : Worker}

theorem workerStep_moves {ok : Bool} (found : p.workers j = some w) (small : p.ring.commitHead < sizeRange)
    (nonzero : w.pc = .claimCommit → p.ring.commitHead ≠ 0) (taken : p.workerStep cfg j ok = some p') :
    WorkerMove cfg p j w p' := by
  have moved (threads : Nat → ThreadInfo) (pipes : Nat → Nat) (pc : WorkerPc) (same : pc.holding = w.pc.holding)
      (facts : ∀ low, CopyFacts cfg low p.ring w.pc → CopyFacts cfg low p.ring pc) :
      WorkerMove cfg p j w ({ p with threads := threads, pipes := pipes }.setWorker j { w with pc := pc }) :=
    .silent threads pipes { w with pc := pc } rfl same facts
  simp only [Pool.workerStep, found] at taken
  cases pc : w.pc <;> simp only [pc] at taken moved
  case start =>
    cases taken
    exact .silent p.threads p.pipes { w with pfd := (p.threads w.slot).childFd, pc := .testRequest } rfl (by rw [pc]; rfl)
      fun _ _ => trivial
  case poll =>
    split at taken
    · split at taken <;> cases taken
      exact moved _ _ _ rfl fun _ _ => trivial
    · cases taken
      exact moved _ _ _ rfl fun _ _ => trivial
  case claimCommit =>
    cases taken
    exact moved _ _ _ rfl fun _ _ => ⟨Nat.pos_of_ne_zero (nonzero pc), Nat.le_refl _⟩
  case claimRequest ch =>
    split at taken <;> cases taken
    · exact moved _ _ _ rfl fun _ _ => trivial
    · rename_i some
      refine moved _ _ _ rfl fun _ facts => ?_
      obtain ⟨positive, seen⟩ := facts
      rw [sizeSub_eq positive (by omega)] at some
      exact show p.ring.requestHead < p.ring.commitHead by omega
  case claimCas rh =>
    split at taken <;> cases taken
    · rename_i here
      subst here
      exact .claim pc
    · exact moved _ _ _ rfl fun _ _ => trivial
  case assertMark rh =>
    split at taken <;> cases taken
    · exact moved _ _ _ rfl fun _ facts => facts
    · exact .fail
  case copyTask rh =>
    cases taken
    exact moved _ _ _ rfl fun _ facts => ⟨facts, rfl⟩
  case copyCleanup rh task =>
    cases taken
    exact moved _ _ _ rfl fun _ facts => ⟨facts.1, facts.2, rfl⟩
  case copyUdata rh task cleanup =>
    cases taken
    refine moved _ _ _ rfl fun _ facts => ?_
    obtain ⟨intact, rfl, rfl⟩ := facts
    exact intact.2
  case releaseMark rh task => cases taken; exact .mark rh task pc
  case casRelease rh task relh =>
    split at taken <;> cases taken
    · rename_i here
      subst here
      exact .release rh task pc
    · exact moved _ _ _ rfl fun _ facts => facts
  case assertReleased rh task relh =>
    split at taken <;> cases taken
    · exact moved _ _ _ rfl fun _ facts => facts
    · exact .fail
  case run rh task => cases taken; exact .run rh task pc
  all_goals first
    | (cases taken; exact moved _ _ _ rfl fun _ facts => facts)
    | (split at taken <;> cases taken <;> exact moved _ _ _ rfl fun _ facts => facts)

end Moves

/-- The index that a thread in `Threadpool_Schedule` has reserved and not yet marked. -/
def SchedPc.reserving : SchedPc → Option Nat
  | .assertReserve _ wh _ => some wh
  | .assertRelease _ wh _ _ => some wh
  | .writeTask _ wh _ => some wh
  | .writeCleanup _ wh _ => some wh
  | .writeUdata _ wh _ => some wh
  | .writeMark _ wh _ => some wh
  | _ => none

/-- The thread is in the loop of `commit_current_task` and will look at index `commit` before it leaves it. -/
def SchedPc.attends (commit : Nat) : SchedPc → Bool
  | .loadCommit _ => true
  | .loadMark _ ch => ch == commit
  | .assertReserved _ _ => true
  | .casCommit _ _ => true
  | .assertRequest _ => true
  | .assertCommit _ _ => true
  | _ => false

/-- Every reserved index will be committed: it is marked or a thread is about to mark it,
and when the first one that is not committed is marked, a thread attends to it. -/
structure Progress (cfg : ThreadpoolConfig) (p : Pool) : Prop where
  written : ∀ r, p.ring.commitHead ≤ r → r < p.ring.reserveHead →
    (p.ring.at cfg r).mark = r ∨ ∃ i, (p.sched i).reserving = some r
  attended : p.ring.commitHead < p.ring.reserveHead → (p.ring.at cfg p.ring.commitHead).mark = p.ring.commitHead →
    ∃ i, (p.sched i).attends p.ring.commitHead = true

section Progress
variable {cfg : ThreadpoolConfig} {fits : (setDefaults cfg).taskRingbufSize2 ≤ threadpoolMaxRingbufSize2}
variable {p p' : Pool} {phase : Nat → Phase Nat Nat} {i : Nat} {pc : SchedPc}

/-- When nobody is in `Threadpool_Schedule`, everything reserved is committed. -/
theorem Progress.complete (progress : Progress cfg p) (ordered : p.ring.commitHead ≤ p.ring.reserveHead)
    (quiet : ∀ i, ∃ res, p.sched i = .idle res) : p.ring.commitHead = p.ring.reserveHead := by
  by_contra apart
  have below : p.ring.commitHead < p.ring.reserveHead := by omega
  rcases progress.written _ (Nat.le_refl _) below with marked | ⟨i, reserving⟩
  · obtain ⟨i, attends⟩ := progress.attended below marked
    obtain ⟨res, idle⟩ := quiet i
    rw [idle] at attends
    cases attends
  · obtain ⟨res, idle⟩ := quiet i
    rw [idle] at reserving
    cases reserving

/-- A step that keeps the marks from the commit head on, and the heads. -/
theorem Progress.sched_keep (progress : Progress cfg p) (sched : p'.sched = update p.sched i pc)
    (commit : p'.ring.commitHead = p.ring.commitHead) (reserve : p'.ring.reserveHead = p.ring.reserveHead)
    (marks : ∀ r, (p'.ring.at cfg r).mark = (p.ring.at cfg r).mark) (same : pc.reserving = (p.sched i).reserving)
    (attends : (p.sched i).attends p.ring.commitHead = true →
      (p.ring.at cfg p.ring.commitHead).mark = p.ring.commitHead → pc.attends p.ring.commitHead = true) :
    Progress cfg p' := by
  refine ⟨fun r above below => ?_, fun below marked => ?_⟩
  · rw [commit] at above
    rw [reserve] at below
    rw [marks]
    rcases progress.written r above below with marked | ⟨k, reserving⟩
    · exact Or.inl marked
    · refine Or.inr ⟨k, ?_⟩
      rw [sched]
      by_cases own : k = i
      · subst k
        rw [update_self, same]
        exact reserving
      · rw [update_of_ne own]
        exact reserving
  · rw [commit] at below marked ⊢
    rw [reserve] at below
    rw [marks] at marked
    obtain ⟨k, attending⟩ := progress.attended below marked
    refine ⟨k, ?_⟩
    rw [sched]
    by_cases own : k = i
    · subst k
      rw [update_self]
      exact attends attending marked
    · rw [update_of_ne own]
      exact attending

/-- A step of a thread that is neither writing a task nor committing one, before it or after it. -/
theorem Progress.sched_outside (progress : Progress cfg p) (sched : p'.sched = update p.sched i pc) (ring : p'.ring = p.ring)
    (before : (p.sched i).reserving = none ∧ (p.sched i).attends p.ring.commitHead = false) (after : pc.reserving = none) :
    Progress cfg p' := by
  refine progress.sched_keep sched (by rw [ring]) (by rw [ring]) (fun r => by rw [ring]) (after.trans before.1.symm) ?_
  intro attending
  rw [before.2] at attending
  cases attending

/-- What a write to a cell does not change is the same in all cells. -/
theorem TaskRing.write_same {α : Type} (part : MarkedTask → α) {ring : TaskRing} {wh : Nat} {x : MarkedTask}
    (same : part x = part (ring.at cfg wh)) (r : Nat) : part ((ring.write cfg wh x).at cfg r) = part (ring.at cfg r) := by
  rw [TaskRing.at_eq, TaskRing.write_tasks]
  by_cases here : r % cfg.ringbufSize = wh % cfg.ringbufSize
  · rw [here, update_self, same, TaskRing.at_eq, TaskRing.at_eq, here]
  · rw [update_of_ne here, TaskRing.at_eq]

/-- A write to the cell of one index of a window leaves the cells of its other indices alone. -/
theorem TaskRing.write_at_other {ring : TaskRing} {r s : Nat} {x : MarkedTask} (low : Nat) (apart : r ≠ s) (lowR : low ≤ r)
    (highR : r < low + cfg.ringbufSize) (lowS : low ≤ s) (highS : s < low + cfg.ringbufSize) :
    (ring.write cfg s x).at cfg r = ring.at cfg r := by
  have cells : r % cfg.ringbufSize ≠ s % cfg.ringbufSize := fun equal => apart (slot_injective lowR highR lowS highS equal)
  rw [TaskRing.at_eq, TaskRing.at_eq, TaskRing.write_tasks, update_of_ne cells]

theorem Progress.reserve (progress : Progress cfg p) (inv : PoolInv cfg fits p phase) {task : ThreadpoolTask} {wh rh back : Nat}
    (here : p.sched i = .casReserve task wh rh) :
    Progress cfg ({ p with ring := { p.ring with
        reserveHead := p.ring.reserveHead + 1, reserved := p.ring.reserved ++ [task] } }.goto i
      (.assertReserve task p.ring.reserveHead back)) := by
  have other (k : Nat) (own : k ≠ i) : update p.sched i (.assertReserve task p.ring.reserveHead back) k = p.sched k :=
    update_of_ne own _ _
  refine ⟨fun r above below => ?_, fun below marked => ?_⟩
  · by_cases last : r = p.ring.reserveHead
    · subst r
      exact Or.inr ⟨i, congrArg SchedPc.reserving (update_self i _ p.sched)⟩
    · change r < p.ring.reserveHead + 1 at below
      rcases progress.written r above (by omega) with marked | ⟨k, reserving⟩
      · exact Or.inl marked
      · have own : k ≠ i := by
          rintro rfl
          rw [here] at reserving
          cases reserving
        exact Or.inr ⟨k, (congrArg SchedPc.reserving (other k own)).trans reserving⟩
  · by_cases none : p.ring.commitHead = p.ring.reserveHead
    · have cell : (p.ring.tasks (p.ring.commitHead % cfg.ringbufSize)).mark = p.ring.commitHead := by
        rw [← TaskRing.at_eq]
        exact marked
      have rank := inv.valid.marked_of_mark (Nat.le_refl p.ring.commitHead) cell
      have free : p.ring.reserveHead ≤ p.ring.commitHead ↔ _ := (inv.valid.ranked p.ring.commitHead).1
      omega
    · change p.ring.commitHead < p.ring.reserveHead + 1 at below
      obtain ⟨k, attending⟩ := progress.attended (by omega) marked
      have own : k ≠ i := by
        rintro rfl
        rw [here] at attending
        cases attending
      exact ⟨k, (congrArg (SchedPc.attends _) (other k own)).trans attending⟩

theorem Progress.mark (progress : Progress cfg p) (inv : PoolInv cfg fits p phase) {task : ThreadpoolTask} {wh back : Nat}
    (here : p.sched i = .writeMark task wh back) :
    Progress cfg ({ p with ring := p.ring.write cfg wh { p.ring.at cfg wh with mark := wh } }.goto i (.loadCommit back)) := by
  have facts := inv.sched i
  rw [here] at facts
  have bounds : p.ring.commitHead ≤ wh ∧ wh < p.ring.reserveHead := inv.valid.reserved_bounds facts.1.1
  obtain ⟨release, request, commit, room⟩ := inv.heads_ordered
  have other (k : Nat) (own : k ≠ i) : update p.sched i (.loadCommit back) k = p.sched k := update_of_ne own _ _
  have kept (r : Nat) (apart : r ≠ wh) (above : p.ring.commitHead ≤ r) (below : r < p.ring.reserveHead) :
      (p.ring.write cfg wh { p.ring.at cfg wh with mark := wh }).at cfg r = p.ring.at cfg r :=
    TaskRing.write_at_other p.ring.commitHead apart above (by omega) bounds.1 (by omega)
  refine ⟨fun r above below => ?_, fun below marked => ?_⟩
  · by_cases same : r = wh
    · subst r
      exact Or.inl (congrArg MarkedTask.mark (TaskRing.write_at ..))
    · rcases progress.written r above below with marked | ⟨k, reserving⟩
      · exact Or.inl ((congrArg MarkedTask.mark (kept r same above below)).trans marked)
      · have own : k ≠ i := by
          rintro rfl
          rw [here] at reserving
          exact same (Option.some.inj reserving).symm
        exact Or.inr ⟨k, (congrArg SchedPc.reserving (other k own)).trans reserving⟩
  · exact ⟨i, congrArg (SchedPc.attends _) (update_self i _ p.sched)⟩

theorem Progress.commit (progress : Progress cfg p) {back ch : Nat} (here : p.sched i = .casCommit back ch) :
    Progress cfg
      ({ p with ring := { p.ring with commitHead := p.ring.commitHead + 1 } }.goto i (.assertRequest back)) := by
  refine ⟨fun r above below => ?_, fun _ _ => ⟨i, congrArg (SchedPc.attends _) (update_self i _ p.sched)⟩⟩
  change p.ring.commitHead + 1 ≤ r at above
  rcases progress.written r (by omega) below with marked | ⟨k, reserving⟩
  · exact Or.inl marked
  · have own : k ≠ i := by
      rintro rfl
      rw [here] at reserving
      cases reserving
    exact Or.inr ⟨k, (congrArg SchedPc.reserving (update_of_ne own _ _)).trans reserving⟩

theorem Progress.fail (progress : Progress cfg p) : Progress cfg p.fail := ⟨progress.written, progress.attended⟩

theorem Progress.schedStep (progress : Progress cfg p) (inv : PoolInv cfg fits p phase) {ok : Bool}
    (taken : p.schedStep cfg i ok = some p') : Progress cfg p' := by
  cases pc : p.sched i <;> simp only [Pool.schedStep, pc] at taken
  case idle res => cases taken
  case casReserve task wh rh =>
    split at taken <;> cases taken
    · rename_i room
      subst room
      exact progress.reserve inv pc
    · exact progress.sched_outside rfl rfl (by rw [pc]; exact ⟨rfl, rfl⟩) rfl
  case assertReserve task wh back =>
    cases taken
    exact progress.sched_keep rfl rfl rfl (fun _ => rfl) (by rw [pc]; rfl) (by rw [pc]; rintro ⟨⟩)
  case assertRelease task wh back reserve =>
    split at taken <;> cases taken
    · exact progress.sched_keep rfl rfl rfl (fun _ => rfl) (by rw [pc]; rfl) (by rw [pc]; rintro ⟨⟩)
    · exact progress.fail
  case writeTask task wh back =>
    cases taken
    exact progress.sched_keep rfl rfl rfl (TaskRing.write_same MarkedTask.mark rfl) (by rw [pc]; rfl) (by rw [pc]; rintro ⟨⟩)
  case writeCleanup task wh back =>
    cases taken
    exact progress.sched_keep rfl rfl rfl (TaskRing.write_same MarkedTask.mark rfl) (by rw [pc]; rfl) (by rw [pc]; rintro ⟨⟩)
  case writeUdata task wh back =>
    cases taken
    exact progress.sched_keep rfl rfl rfl (TaskRing.write_same MarkedTask.mark rfl) (by rw [pc]; rfl) (by rw [pc]; rintro ⟨⟩)
  case writeMark task wh back => cases taken; exact progress.mark inv pc
  case loadCommit back =>
    cases taken
    exact progress.sched_keep rfl rfl rfl (fun _ => rfl) (by rw [pc]; rfl) fun _ _ => beq_self_eq_true _
  case loadMark back ch =>
    split at taken <;> cases taken
    · rename_i differs
      refine progress.sched_keep rfl rfl rfl (fun _ => rfl) (by rw [pc]; rfl) fun attending marked => ?_
      rw [pc] at attending
      have same : ch = p.ring.commitHead := eq_of_beq attending
      subst ch
      exact absurd marked.symm differs
    · exact progress.sched_keep rfl rfl rfl (fun _ => rfl) (by rw [pc]; rfl) fun _ _ => rfl
  case assertReserved back ch =>
    split at taken <;> cases taken
    · exact progress.sched_keep rfl rfl rfl (fun _ => rfl) (by rw [pc]; rfl) fun _ _ => rfl
    · exact progress.fail
  case casCommit back ch =>
    split at taken <;> cases taken
    · rename_i first
      subst first
      exact progress.commit pc
    · exact progress.sched_keep rfl rfl rfl (fun _ => rfl) (by rw [pc]; rfl) fun _ _ => rfl
  case assertRequest back =>
    cases taken
    exact progress.sched_keep rfl rfl rfl (fun _ => rfl) (by rw [pc]; rfl) fun _ _ => rfl
  case assertCommit back q =>
    split at taken <;> cases taken
    · exact progress.sched_keep rfl rfl rfl (fun _ => rfl) (by rw [pc]; rfl) fun _ _ => rfl
    · exact progress.fail
  all_goals first
    | (cases taken; exact progress.sched_outside rfl rfl (by rw [pc]; exact ⟨rfl, rfl⟩) rfl)
    | (split at taken <;> cases taken <;> exact progress.sched_outside rfl rfl (by rw [pc]; exact ⟨rfl, rfl⟩) rfl)

/-- A step that leaves the marks from the commit head on, the threads in `Threadpool_Schedule` and the two heads alone. -/
theorem Progress.frame (progress : Progress cfg p) (sched : p'.sched = p.sched) (commit : p'.ring.commitHead = p.ring.commitHead)
    (reserve : p'.ring.reserveHead = p.ring.reserveHead)
    (marks : ∀ r, p.ring.commitHead ≤ r → r < p.ring.reserveHead → (p'.ring.at cfg r).mark = (p.ring.at cfg r).mark) :
    Progress cfg p' := by
  refine ⟨fun r above below => ?_, fun below marked => ?_⟩
  · rw [commit] at above
    rw [reserve] at below
    rw [marks r above below, sched]
    exact progress.written r above below
  · rw [commit] at below marked
    rw [reserve] at below
    rw [marks _ (Nat.le_refl _) below] at marked
    rw [commit, sched]
    exact progress.attended below marked

theorem Progress.worker {j : Nat} {w : Worker} (progress : Progress cfg p) (inv : PoolInv cfg fits p phase)
    (found : p.workers j = some w) (move : WorkerMove cfg p j w p') : Progress cfg p' := by
  cases move with
  | fail => exact progress.fail
  | mark rh task here =>
    have facts := inv.worker j w found
    rw [here] at facts
    have bounds : p.ring.releaseHead ≤ rh ∧ rh < p.ring.requestHead := inv.valid.claimed_bounds facts.1
    obtain ⟨release, request, commit, room⟩ := inv.heads_ordered
    refine progress.frame rfl rfl rfl fun r above below => congrArg MarkedTask.mark ?_
    exact TaskRing.write_at_other p.ring.releaseHead (by omega) (by omega) (by omega) bounds.1 (by omega)
  | _ => exact progress.frame rfl rfl rfl fun _ _ _ => rfl

theorem Progress.step {label : PoolLabel} (progress : Progress cfg p) (inv : PoolInv cfg fits p phase)
    (ok : NotWrapping p ∧ CommittedClaim p label) (taken : poolStep cfg p label = some p') : Progress cfg p' := by
  simp only [poolStep, inv.running, Bool.false_eq_true, if_false] at taken
  cases label with
  | call i task =>
    dsimp only at taken
    split at taken
    · rename_i res idle
      split at taken <;> cases taken
      · exact progress
      · exact progress.sched_outside rfl rfl (by rw [idle]; exact ⟨rfl, rfl⟩) rfl
    · cases taken
  | sched i result => exact progress.schedStep inv taken
  | worker j result =>
    obtain ⟨_, _, commit, _⟩ := inv.heads_ordered
    have wrap : p.ring.reserveHead + 1 < sizeRange := ok.1
    cases found : p.workers j with
    | none =>
      simp only [Pool.workerStep, found] at taken
      cases taken
    | some w => exact progress.worker inv found (workerStep_moves found (by omega) (ok.2 w found) taken)

end Progress

/-- Every worker created is counted in `live_threads` or is about to be, by the thread that created it. -/
def Crewed (p : Pool) : Prop := ∃ n, Counts SchedPc.spawned p.sched n ∧ p.created ≤ p.liveThreads + n

/-- `live_threads`, an 8-bit number, does not wrap when a worker is counted. -/
def CountsOn (p : Pool) : PoolLabel → Prop
  | .sched i _ => ∀ back v, p.sched i = .adjCas back v → v + 1 < 256
  | _ => True

section Crew
variable {cfg : ThreadpoolConfig} {p p' : Pool} {i : Nat} {pc : SchedPc}

theorem Crewed.sched_move (crewed : Crewed p) (sched : p'.sched = update p.sched i pc) (created : p'.created = p.created)
    (live : p'.liveThreads = p.liveThreads) (same : pc.spawned = (p.sched i).spawned) : Crewed p' := by
  obtain ⟨n, counts, enough⟩ := crewed
  refine ⟨n, ?_, by rw [created, live]; exact enough⟩
  rw [sched]
  exact counts.stay same

theorem Crewed.schedStep (crewed : Crewed p) {ok : Bool} (small : CountsOn p (.sched i ok))
    (taken : p.schedStep cfg i ok = some p') : Crewed p' := by
  cases pc : p.sched i <;> simp only [Pool.schedStep, pc] at taken
  case idle res => cases taken
  case spawnCreate back id =>
    split at taken <;> cases taken
    · obtain ⟨n, counts, enough⟩ := crewed
      refine ⟨n + 1, counts.enter (by rw [pc]; rfl) rfl, ?_⟩
      change p.created + 1 ≤ p.liveThreads + (n + 1)
      omega
    · exact crewed.sched_move rfl rfl rfl (by rw [pc]; rfl)
  case adjCas back v =>
    split at taken <;> cases taken
    · rename_i same
      obtain ⟨n, counts, enough⟩ := crewed
      have positive : 0 < n := counts.pos (u := i) (by rw [pc]; rfl)
      refine ⟨n - 1, counts.leave (by rw [pc]; rfl) rfl, ?_⟩
      have limit := small back v pc
      change p.created ≤ (v + 1) % 256 + (n - 1)
      rw [Nat.mod_eq_of_lt limit]
      omega
    · exact crewed.sched_move rfl rfl rfl (by rw [pc]; rfl)
  all_goals first
    | (cases taken; exact crewed.sched_move rfl rfl rfl (by rw [pc]; rfl))
    | (split at taken <;> cases taken <;> first | exact crewed.sched_move rfl rfl rfl (by rw [pc]; rfl) | exact crewed)

theorem Crewed.worker {j : Nat} {ok : Bool} (crewed : Crewed p) (taken : p.workerStep cfg j ok = some p') : Crewed p' := by
  unfold Pool.workerStep at taken
  split at taken
  · cases taken
  · rename_i w found
    cases pc : w.pc <;> simp only [pc] at taken
    case poll =>
      split at taken
      · split at taken <;> cases taken
        exact crewed
      · cases taken
        exact crewed
    all_goals first
      | (cases taken; exact crewed)
      | (split at taken <;> cases taken <;> exact crewed)

theorem Crewed.step {label : PoolLabel} (crewed : Crewed p) (small : CountsOn p label)
    (taken : poolStep cfg p label = some p') : Crewed p' := by
  unfold poolStep at taken
  split at taken
  · cases taken
  · cases label with
    | call i task =>
      dsimp only at taken
      split at taken
      · rename_i res idle
        split at taken <;> cases taken
        · exact crewed
        · exact crewed.sched_move rfl rfl rfl (by rw [idle]; rfl)
      · cases taken
    | sched i result => exact crewed.schedStep small taken
    | worker j result => exact crewed.worker taken

/-- When nobody is in `Threadpool_Schedule`, all workers are counted. -/
theorem Crewed.complete (crewed : Crewed p) (quiet : ∀ i, ∃ res, p.sched i = .idle res) : p.created ≤ p.liveThreads := by
  obtain ⟨n, counts, enough⟩ := crewed
  have nobody : Counts SchedPc.spawned p.sched 0 := by
    refine .zero fun i => ?_
    obtain ⟨res, idle⟩ := quiet i
    rw [idle]
    rfl
  have none : n = 0 := counts.card.symm.trans nobody.card
  omega

end Crew

section Start
variable {cfg : ThreadpoolConfig} {start : Pool}

theorem threadpoolInit_blank (init : threadpoolInit cfg = some start) :
    start.ring.commitHead = start.ring.reserveHead ∧ (∀ i, start.sched i = .idle none) ∧ start.created = 0 ∧
      start.ring.requestHead = 0 ∧ start.claims = [] ∧ start.executed = [] ∧ ∀ j, start.workers j = none := by
  unfold threadpoolInit at init
  dsimp only at init
  split at init
  · cases init
  · split at init <;> cases init
    exact ⟨rfl, fun _ => rfl, rfl, rfl, rfl, rfl, fun _ => rfl⟩

theorem Progress.initial (init : threadpoolInit cfg = some start) : Progress cfg start := by
  have blank := (threadpoolInit_blank init).1
  exact ⟨fun r above below => by omega, fun below _ => by omega⟩

theorem Crewed.initial (init : threadpoolInit cfg = some start) : Crewed start := by
  obtain ⟨_, idle, created, _⟩ := threadpoolInit_blank init
  refine ⟨0, .zero fun i => ?_, by omega⟩
  rw [idle i]
  rfl

end Start

end Kinetic
