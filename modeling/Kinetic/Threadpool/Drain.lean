import Kinetic.Threadpool.Accounts
import Kinetic.Threadpool.WorkerTable

namespace Kinetic
open Function

namespace ShutPool

/-- The worker in entry `k` has come to its end. -/
def Gone (s : ShutPool) (k : Nat) : Prop := ∃ j, s.handle k = some j ∧ s.stages j = .exited

/-- `notify_shutdown` is at entry `k` and has counted `done` of the ones before it. -/
def Counted (s : ShutPool) (k done : Nat) : Prop :=
  k ≤ s.pool.liveThreads ∧ done ≤ k ∧ (done = k → ∀ m < k, s.Gone m)

/-- Every committed index has been claimed, which the second `notify_shutdown` can rely on. -/
def Drained (s : ShutPool) (last : Bool) : Prop := last = true → s.pool.ring.commitHead ≤ s.pool.ring.requestHead

end ShutPool

/-- What a thread in `Threadpool_Shutdown` relies on while nobody is in `Threadpool_Schedule`. -/
def ShutFacts (cfg : ThreadpoolConfig) (low : Nat) (s : ShutPool) (i : Nat) : ShutdownPc → Prop
  | .notify last k done => s.Drained last ∧ s.Counted k done
  | .testJoined last k done => s.Drained last ∧ s.Counted k done ∧ k < s.pool.liveThreads
  | .testShutdown last k done => s.Drained last ∧ s.Counted k done ∧ k < s.pool.liveThreads
  | .join last k done => s.Drained last ∧ s.Counted k done ∧ k < s.pool.liveThreads
  | .setJoined last k done => s.Drained last ∧ s.Counted k done ∧ k < s.pool.liveThreads ∧ s.Gone k
  | .close last k done => s.Drained last ∧ s.Counted k done ∧ k < s.pool.liveThreads
  | .result last done => s.Drained last ∧ s.Counted s.pool.liveThreads done
  | .drainRequest ch => s.pool.ring.commitHead ≤ ch
  | .testCleanup rh => s.pool.ring.Intact cfg low rh
  | .loadCleanup rh => s.pool.ring.Intact cfg low rh ∧ (s.pool.ring.at cfg rh).cleanup ≠ 0
  | .callCleanup rh cleanup =>
    s.pool.ring.Intact cfg low rh ∧ (s.pool.ring.at cfg rh).cleanup = cleanup ∧ cleanup ≠ 0
  | .clearUdata rh => s.claimed rh (.shutter i) ∧ low ≤ rh ∧ rh < s.pool.ring.commitHead
  | _ => True

/-- A pool that is shutting down, with nobody in `Threadpool_Schedule`. The indices
from `low` on have cells of their own, and every one that has still to be claimed or copied is among them. -/
structure Draining (cfg : ThreadpoolConfig) (low : Nat) (s : ShutPool) : Prop where
  flag : s.shuttingDown = true
  quiet : ∀ i, ∃ res, s.pool.sched i = .idle res
  complete : s.pool.ring.commitHead = s.pool.ring.reserveHead
  length : s.pool.ring.reserved.length = s.pool.ring.reserveHead
  request : s.pool.ring.requestHead ≤ s.pool.ring.commitHead
  window : s.pool.ring.commitHead ≤ low + cfg.ringbufSize
  unclaimed : ∀ r, s.pool.ring.requestHead ≤ r → r < s.pool.ring.commitHead → s.pool.ring.Intact cfg low r
  worker : ∀ j w, s.pool.workers j = some w →
    CopyFacts cfg low s.pool.ring w.pc ∧ (s.stages j = .running ∨ w.pc.holding = none)
  shutter : ∀ i, ShutFacts cfg low s i (s.shutters i)
  crew : s.pool.created ≤ s.pool.liveThreads
  bounded : Bounded s.pool
  handles : ∀ k j, s.handle k = some j → s.pool.slotOf j = some k
  joined : ∀ k, s.ended k = .joined → s.Gone k
  halted : s.halted = true →
    s.pool.ring.commitHead ≤ s.pool.ring.requestHead ∧ ∀ j w, s.pool.workers j = some w → s.stages j = .exited

/-- What a step of one claimant leaves to the others while the pool is drained. -/
structure Onward (cfg : ThreadpoolConfig) (low : Nat) (c : Claimant) (s s' : ShutPool) : Prop where
  flag : s'.shuttingDown = s.shuttingDown
  sched : s'.pool.sched = s.pool.sched
  commit : s'.pool.ring.commitHead = s.pool.ring.commitHead
  reserve : s'.pool.ring.reserveHead = s.pool.ring.reserveHead
  request : s.pool.ring.requestHead ≤ s'.pool.ring.requestHead
  reserved : s'.pool.ring.reserved = s.pool.ring.reserved
  created : s'.pool.created = s.pool.created
  live : s'.pool.liveThreads = s.pool.liveThreads
  handle : s'.handle = s.handle
  exited : ∀ j, s.stages j = .exited → s'.stages j = .exited
  drains : ∀ e ∈ s.drains, e ∈ s'.drains
  unclaimed : ∀ r, s'.pool.ring.requestHead ≤ r → s.pool.ring.Intact cfg low r →
    (s'.pool.ring.at cfg r).toThreadpoolTask = (s.pool.ring.at cfg r).toThreadpoolTask
  held : ∀ r d, s.holds d = some r → d ≠ c → s.pool.ring.Intact cfg low r →
    (s'.pool.ring.at cfg r).toThreadpoolTask = (s.pool.ring.at cfg r).toThreadpoolTask

section Stability
variable {cfg : ThreadpoolConfig} {low : Nat} {c : Claimant} {s s' : ShutPool}

theorem ShutPool.Gone.later {k : Nat} (gone : s.Gone k) (onward : Onward cfg low c s s') : s'.Gone k := by
  obtain ⟨j, handle, exited⟩ := gone
  exact ⟨j, by rw [onward.handle]; exact handle, onward.exited j exited⟩

theorem ShutPool.Counted.later {k done : Nat} (counted : s.Counted k done) (onward : Onward cfg low c s s') :
    s'.Counted k done := by
  obtain ⟨within, least, gone⟩ := counted
  exact ⟨by rw [onward.live]; exact within, least, fun all m below => (gone all m below).later onward⟩

theorem ShutPool.Drained.later {last : Bool} (drained : s.Drained last) (onward : Onward cfg low c s s') : s'.Drained last := by
  intro second
  rw [onward.commit]
  exact Nat.le_trans (drained second) onward.request

theorem Onward.intact {r : Nat} (onward : Onward cfg low c s s') (intact : s.pool.ring.Intact cfg low r)
    (same : (s'.pool.ring.at cfg r).toThreadpoolTask = (s.pool.ring.at cfg r).toThreadpoolTask) :
    s'.pool.ring.Intact cfg low r := by
  refine ⟨intact.1, ?_⟩
  rw [onward.reserved, same]
  exact intact.2

theorem CopyFacts.later {j : Nat} {w : Worker} (facts : CopyFacts cfg low s.pool.ring w.pc) (found : s.pool.workers j = some w)
    (onward : Onward cfg low c s s') (other : Claimant.worker j ≠ c) : CopyFacts cfg low s'.pool.ring w.pc := by
  have holds := ShutPool.holds_of_found found
  have kept (r : Nat) (held : w.pc.holding = some r) (intact : s.pool.ring.Intact cfg low r) :
      s'.pool.ring.Intact cfg low r ∧ (s'.pool.ring.at cfg r).toThreadpoolTask = (s.pool.ring.at cfg r).toThreadpoolTask := by
    have same := onward.held r _ (holds.trans held) other intact
    exact ⟨onward.intact intact same, same⟩
  have commit := onward.commit
  have reserved := onward.reserved
  cases pc : w.pc <;> rw [pc] at facts kept
  case claimRequest ch => exact ⟨facts.1, Nat.le_trans facts.2 (Nat.le_of_eq commit.symm)⟩
  case claimCas rh => exact Nat.lt_of_lt_of_le facts (Nat.le_of_eq commit.symm)
  case assertMark rh => exact (kept rh rfl facts).1
  case copyTask rh => exact (kept rh rfl facts).1
  case copyCleanup rh task =>
    obtain ⟨intact, same⟩ := kept rh rfl facts.1
    exact ⟨intact, (congrArg ThreadpoolTask.task same).trans facts.2⟩
  case copyUdata rh task cleanup =>
    obtain ⟨intact, same⟩ := kept rh rfl facts.1
    exact ⟨intact, (congrArg ThreadpoolTask.task same).trans facts.2.1,
      (congrArg ThreadpoolTask.cleanup same).trans facts.2.2⟩
  case releaseMark rh task => exact (congrArg (·[rh]?) reserved).trans facts
  case loadRelease rh task => exact (congrArg (·[rh]?) reserved).trans facts
  case loadReleased rh task relh => exact (congrArg (·[rh]?) reserved).trans facts
  case casRelease rh task relh => exact (congrArg (·[rh]?) reserved).trans facts
  case assertReleased rh task relh => exact (congrArg (·[rh]?) reserved).trans facts
  case run rh task => exact (congrArg (·[rh]?) reserved).trans facts
  all_goals trivial

theorem ShutFacts.later {i : Nat} {pc : ShutdownPc} (facts : ShutFacts cfg low s i pc) (here : s.shutters i = pc)
    (onward : Onward cfg low c s s') (other : Claimant.shutter i ≠ c) : ShutFacts cfg low s' i pc := by
  have kept (r : Nat) (held : pc.holding = some r) (intact : s.pool.ring.Intact cfg low r) :
      s'.pool.ring.Intact cfg low r ∧ (s'.pool.ring.at cfg r).toThreadpoolTask = (s.pool.ring.at cfg r).toThreadpoolTask := by
    have same := onward.held r (.shutter i) (by rw [← here] at held; exact held) other intact
    exact ⟨onward.intact intact same, same⟩
  have within (k : Nat) (below : k < s.pool.liveThreads) : k < s'.pool.liveThreads := by
    rw [onward.live]
    exact below
  cases pc with
  | notify last k done => exact ⟨facts.1.later onward, facts.2.later onward⟩
  | testJoined last k done => exact ⟨facts.1.later onward, facts.2.1.later onward, within k facts.2.2⟩
  | testShutdown last k done => exact ⟨facts.1.later onward, facts.2.1.later onward, within k facts.2.2⟩
  | join last k done => exact ⟨facts.1.later onward, facts.2.1.later onward, within k facts.2.2⟩
  | setJoined last k done =>
    exact ⟨facts.1.later onward, facts.2.1.later onward, within k facts.2.2.1, facts.2.2.2.later onward⟩
  | close last k done => exact ⟨facts.1.later onward, facts.2.1.later onward, within k facts.2.2⟩
  | result last done =>
    refine ⟨facts.1.later onward, ?_⟩
    rw [onward.live]
    exact facts.2.later onward
  | drainRequest ch => exact Nat.le_trans (Nat.le_of_eq onward.commit) facts
  | testCleanup rh => exact (kept rh rfl facts).1
  | loadCleanup rh =>
    obtain ⟨intact, same⟩ := kept rh rfl facts.1
    refine ⟨intact, ?_⟩
    rw [congrArg ThreadpoolTask.cleanup same]
    exact facts.2
  | callCleanup rh cleanup =>
    obtain ⟨intact, same⟩ := kept rh rfl facts.1
    exact ⟨intact, (congrArg ThreadpoolTask.cleanup same).trans facts.2.1, facts.2.2⟩
  | clearUdata rh => exact ⟨onward.drains _ facts.1, facts.2.1, by rw [onward.commit]; exact facts.2.2⟩
  | _ => trivial

/-- The pool goes on draining when the claimant that took the step gets where it may be. -/
theorem Draining.later (draining : Draining cfg low s) (onward : Onward cfg low c s s')
    (request : s'.pool.ring.requestHead ≤ s.pool.ring.commitHead)
    (worker : ∀ j v, s'.pool.workers j = some v →
      Claimant.worker j ≠ c ∧ s.pool.workers j = some v ∧ s'.stages j = s.stages j ∨
        CopyFacts cfg low s'.pool.ring v.pc ∧ (s'.stages j = .running ∨ v.pc.holding = none))
    (shutter : ∀ i, Claimant.shutter i ≠ c ∧ s'.shutters i = s.shutters i ∨ ShutFacts cfg low s' i (s'.shutters i))
    (slots : s'.pool.slotOf = s.pool.slotOf) (bounded : Bounded s'.pool)
    (joined : ∀ k, s'.ended k = .joined → s.ended k = .joined ∨ s'.Gone k)
    (halted : s'.halted = true → s'.pool.ring.commitHead ≤ s'.pool.ring.requestHead ∧
      ∀ j w, s'.pool.workers j = some w → s'.stages j = .exited) : Draining cfg low s' := by
  have commit := onward.commit
  refine ⟨onward.flag.trans draining.flag, ?_, ?_, ?_, by rw [commit]; exact request, by rw [commit]; exact draining.window,
    fun r above below => ?_, fun j v found => ?_, fun i => ?_, ?_, bounded, ?_, fun k ended => ?_, halted⟩
  · rw [onward.sched]
    exact draining.quiet
  · rw [commit, onward.reserve]
    exact draining.complete
  · rw [onward.reserved, onward.reserve]
    exact draining.length
  · have intact := draining.unclaimed r (Nat.le_trans onward.request above) (by rw [← commit]; exact below)
    exact onward.intact intact (onward.unclaimed r above intact)
  · rcases worker j v found with ⟨other, before, same⟩ | own
    · obtain ⟨facts, place⟩ := draining.worker j v before
      rw [same]
      exact ⟨facts.later before onward other, place⟩
    · exact own
  · rcases shutter i with ⟨other, same⟩ | own
    · rw [same]
      exact (draining.shutter i).later rfl onward other
    · exact own
  · rw [onward.created, onward.live]
    exact draining.crew
  · rw [onward.handle, slots]
    exact draining.handles
  · rcases joined k ended with before | gone
    · exact (draining.joined k before).later onward
    · exact gone

/-- Cells that keep their tasks keep them for everyone. -/
theorem onward_of_same (flag : s'.shuttingDown = s.shuttingDown) (sched : s'.pool.sched = s.pool.sched)
    (commit : s'.pool.ring.commitHead = s.pool.ring.commitHead) (reserve : s'.pool.ring.reserveHead = s.pool.ring.reserveHead)
    (request : s.pool.ring.requestHead ≤ s'.pool.ring.requestHead)
    (reserved : s'.pool.ring.reserved = s.pool.ring.reserved) (created : s'.pool.created = s.pool.created)
    (live : s'.pool.liveThreads = s.pool.liveThreads) (handle : s'.handle = s.handle)
    (exited : ∀ j, s.stages j = .exited → s'.stages j = .exited) (drains : ∀ e ∈ s.drains, e ∈ s'.drains)
    (cells : ∀ r, (s'.pool.ring.at cfg r).toThreadpoolTask = (s.pool.ring.at cfg r).toThreadpoolTask) :
    Onward cfg low c s s' :=
  ⟨flag, sched, commit, reserve, request, reserved, created, live, handle, exited, drains, fun r _ _ => cells r,
    fun r _ _ _ _ => cells r⟩

end Stability

section Workers
variable {cfg : ThreadpoolConfig} {low j : Nat} {s s' : ShutPool} {w : Worker} {p' : Pool}

theorem WorkerMove.onward (move : WorkerMove cfg s.pool j w p') (pool : s'.pool = p') (flag : s'.shuttingDown = s.shuttingDown)
    (handle : s'.handle = s.handle) (exited : ∀ k, s.stages k = .exited → s'.stages k = .exited) (drains : s'.drains = s.drains) :
    Onward cfg low (.worker j) s s' := by
  have kept : ∀ e ∈ s.drains, e ∈ s'.drains := by
    rw [drains]
    exact fun _ member => member
  cases move with
  | claim here =>
    refine onward_of_same flag (by rw [pool]; rfl) (by rw [pool]; rfl) (by rw [pool]; rfl) ?_ (by rw [pool]; rfl)
      (by rw [pool]; rfl) (by rw [pool]; rfl) handle exited kept fun r => by rw [pool]; rfl
    rw [pool]
    exact Nat.le_succ _
  | mark rh task here =>
    refine onward_of_same flag (by rw [pool]; rfl) (by rw [pool]; rfl) (by rw [pool]; rfl) (by rw [pool]; exact Nat.le_refl _)
      (by rw [pool]; rfl) (by rw [pool]; rfl) (by rw [pool]; rfl) handle exited kept fun r => ?_
    rw [pool]
    have marked : ({ s.pool.ring.at cfg rh with mark := sizeNot rh } : MarkedTask).toThreadpoolTask =
      (s.pool.ring.at cfg rh).toThreadpoolTask := rfl
    exact TaskRing.write_same MarkedTask.toThreadpoolTask marked r
  | _ =>
    exact onward_of_same flag (by rw [pool]; rfl) (by rw [pool]; rfl) (by rw [pool]; rfl) (by rw [pool]; exact Nat.le_refl _)
      (by rw [pool]; rfl) (by rw [pool]; rfl) (by rw [pool]; rfl) handle exited kept fun r => by rw [pool]; rfl

/-- The worker is the only one that a step of it moves, and it stays in its entry. -/
theorem WorkerMove.workers (move : WorkerMove cfg s.pool j w p') (found : s.pool.workers j = some w) :
    ∃ v, p'.workers = update s.pool.workers j (some v) ∧ v.slot = w.slot := by
  cases move with
  | fail =>
    refine ⟨w, ?_, rfl⟩
    rw [← found, update_eq_self]
    rfl
  | silent threads pipes v slot same facts => exact ⟨v, rfl, slot⟩
  | _ => exact ⟨_, rfl, rfl⟩

theorem setWorker_found {p : Pool} {v u : Worker} (seen : (p.setWorker j v).workers j = some u) : u = v :=
  Option.some.inj (seen.symm.trans (update_self ..))

/-- Where a step takes the worker, it has what it relies on. -/
theorem WorkerMove.facts (move : WorkerMove cfg s.pool j w p') (draining : Draining cfg low s) (found : s.pool.workers j = some w) :
    (∀ v, p'.workers j = some v → CopyFacts cfg low p'.ring v.pc) ∧ p'.ring.requestHead ≤ s.pool.ring.commitHead := by
  have facts := (draining.worker j w found).1
  have request := draining.request
  cases move with
  | fail =>
    refine ⟨fun v seen => ?_, request⟩
    cases found.symm.trans seen
    exact facts
  | silent threads pipes v slot same keeps =>
    refine ⟨fun u seen => ?_, request⟩
    rw [setWorker_found seen]
    exact keeps low facts
  | claim here =>
    rw [here] at facts
    have below : s.pool.ring.requestHead < s.pool.ring.commitHead := facts
    refine ⟨fun u seen => ?_, below⟩
    rw [setWorker_found seen]
    exact draining.unclaimed _ (Nat.le_refl _) below
  | mark rh task here =>
    rw [here] at facts
    refine ⟨fun u seen => ?_, request⟩
    rw [setWorker_found seen]
    exact facts
  | release rh task here =>
    rw [here] at facts
    refine ⟨fun u seen => ?_, request⟩
    rw [setWorker_found seen]
    exact facts
  | run rh task here =>
    refine ⟨fun u seen => ?_, request⟩
    rw [setWorker_found seen]
    trivial

theorem slotOf_update {p p' : Pool} {v : Worker} (found : p.workers j = some w)
    (workers : p'.workers = update p.workers j (some v)) (slot : v.slot = w.slot) : p'.slotOf = p.slotOf := by
  funext k
  unfold Pool.slotOf
  rw [workers]
  by_cases same : k = j
  · subst k
    rw [update_self, found]
    exact congrArg some slot
  · rw [update_of_ne same]

/-- The pool goes on draining after a step of a worker that has not come to its end. -/
theorem Draining.worker_step (draining : Draining cfg low s) (found : s.pool.workers j = some w)
    (alive : s.stages j ≠ .exited) (move : WorkerMove cfg s.pool j w p') (pool : s'.pool = p')
    (flag : s'.shuttingDown = s.shuttingDown) (handle : s'.handle = s.handle) (drains : s'.drains = s.drains)
    (shutters : s'.shutters = s.shutters) (halted : s'.halted = s.halted)
    (others : ∀ k, k ≠ j → s'.stages k = s.stages k)
    (own : s'.stages j = .running ∨ ∀ v, p'.workers j = some v → v.pc.holding = none)
    (ended : ∀ k, s'.ended k = .joined → s.ended k = .joined) : Draining cfg low s' := by
  have exited (k : Nat) (gone : s.stages k = .exited) : s'.stages k = .exited := by
    have apart : k ≠ j := by
      rintro rfl
      exact alive gone
    exact (others k apart).trans gone
  have onward : Onward cfg low (.worker j) s s' := move.onward pool flag handle exited drains
  obtain ⟨facts, request⟩ := move.facts draining found
  obtain ⟨v, workers, slot⟩ := move.workers found
  have slots : s'.pool.slotOf = s.pool.slotOf := by
    rw [pool]
    exact slotOf_update found workers slot
  refine draining.later onward (by rw [pool]; exact request) (fun k u seen => ?_) (fun i => ?_) slots ?_
    (fun k joined => Or.inl (ended k joined)) fun stopped => ?_
  · rw [pool] at seen
    by_cases same : k = j
    · subst k
      refine Or.inr ⟨by rw [pool]; exact facts u seen, ?_⟩
      rcases own with running | free
      · exact Or.inl running
      · exact Or.inr (free u seen)
    · rw [workers, update_of_ne same] at seen
      exact Or.inl ⟨by simpa using same, seen, others k same⟩
  · exact Or.inl ⟨by simp, congrFun shutters i⟩
  · intro k u seen
    rw [onward.created]
    rw [pool, workers] at seen
    by_cases same : k = j
    · rw [same]
      exact draining.bounded j w found
    · exact draining.bounded k u ((update_of_ne same _ _).symm.trans seen)
  · rw [halted] at stopped
    exact absurd ((draining.halted stopped).2 j w found) alive

/-- The pool goes on draining and the accounts balance. -/
def Audited (cfg : ThreadpoolConfig) (low : Nat) (s : ShutPool) : Prop := Draining cfg low s ∧ Accounts s

theorem Audited.worker_step (audited : Audited cfg low s) (found : s.pool.workers j = some w) (alive : s.stages j ≠ .exited)
    (move : WorkerMove cfg s.pool j w s'.pool) (flag : s'.shuttingDown = s.shuttingDown) (handle : s'.handle = s.handle)
    (drains : s'.drains = s.drains) (cleaned : s'.cleaned = s.cleaned) (shutters : s'.shutters = s.shutters)
    (halted : s'.halted = s.halted) (others : ∀ k, k ≠ j → s'.stages k = s.stages k)
    (own : s'.stages j = .running ∨ ∀ v, s'.pool.workers j = some v → v.pc.holding = none)
    (ended : ∀ k, s'.ended k = .joined → s.ended k = .joined) : Audited cfg low s' :=
  ⟨audited.1.worker_step found alive move rfl flag handle drains shutters halted others own ended,
    audited.2.worker found (audited.1.worker j w found).1 move rfl shutters drains cleaned⟩

theorem WorkerMove.stay {p : Pool} (found : p.workers j = some w) : WorkerMove cfg p j w p := by
  have same : p.setWorker j w = p := by
    unfold Pool.setWorker
    rw [← found, update_eq_self]
  have move : WorkerMove cfg p j w (p.setWorker j w) := .silent p.threads p.pipes w rfl rfl fun _ facts => facts
  rw [same] at move
  exact move

theorem ShutPool.setEnded_joined {k m : Nat} {status : EndStatus} (other : status ≠ .joined)
    (joined : (s.setEnded k status).ended m = .joined) : s.ended m = .joined := by
  by_cases same : m = k
  · subst m
    exact absurd ((update_self ..).symm.trans joined) other
  · exact (update_of_ne same _ _).symm.trans joined

/-- A worker changes its stage while it holds nothing. -/
theorem Audited.stage_step {stage : WorkerStage} (audited : Audited cfg low s) (found : s.pool.workers j = some w)
    (alive : s.stages j ≠ .exited) (free : w.pc.holding = none) (pool : s'.pool = s.pool)
    (stages : s'.stages = update s.stages j stage) (flag : s'.shuttingDown = s.shuttingDown) (handle : s'.handle = s.handle)
    (drains : s'.drains = s.drains) (cleaned : s'.cleaned = s.cleaned) (shutters : s'.shutters = s.shutters)
    (halted : s'.halted = s.halted) (ended : ∀ k, s'.ended k = .joined → s.ended k = .joined) : Audited cfg low s' := by
  refine audited.worker_step found alive (by rw [pool]; exact .stay found) flag handle drains cleaned shutters halted
    (fun k apart => by rw [stages, update_of_ne apart]) (Or.inr fun v seen => ?_) ended
  rw [pool] at seen
  cases found.symm.trans seen
  exact free

/-- A running worker goes on without touching the pool. -/
theorem Audited.goto_step {pc : WorkerPc} (audited : Audited cfg low s) (found : s.pool.workers j = some w)
    (running : s.stages j = .running) (before : w.pc.holding = none) (after : pc.holding = none)
    (facts : ∀ low, CopyFacts cfg low s.pool.ring pc) :
    Audited cfg low { s with pool := s.pool.setWorker j { w with pc := pc } } := by
  refine audited.worker_step found (by rw [running]; nofun)
    (.silent s.pool.threads s.pool.pipes { w with pc := pc } rfl (after.trans before.symm) fun low _ => facts low) rfl rfl rfl rfl
    rfl rfl (fun _ _ => rfl) (Or.inl running) fun _ joined => joined

theorem Audited.workerStep {ok : Bool} (audited : Audited cfg low s) (small : s.pool.ring.commitHead < sizeRange)
    (nonzero : ∀ w, s.pool.workers j = some w → s.stages j = .tested → w.pc = .claimCommit → s.pool.ring.commitHead ≠ 0)
    (taken : s.workerStep cfg j ok = some s') : Audited cfg low s' := by
  unfold ShutPool.workerStep at taken
  split at taken
  · cases taken
  · rename_i w found
    have place := (audited.1.worker j w found).2
    dsimp only at taken
    split at taken
    · cases taken
    · rename_i leaving
      cases taken
      have free : w.pc.holding = none := by simpa [leaving] using place
      exact audited.stage_step found (by rw [leaving]; nofun) free rfl rfl rfl rfl rfl rfl rfl rfl fun _ joined => joined
    · rename_i hangup
      cases taken
      have free : w.pc.holding = none := by simpa [hangup] using place
      exact audited.stage_step found (by rw [hangup]; nofun) free rfl rfl rfl rfl rfl rfl rfl rfl
        fun _ joined => ShutPool.setEnded_joined (by nofun) joined
    · rename_i tested
      simp only [Option.map_map, Option.map_eq_some_iff] at taken
      obtain ⟨p', base, rfl⟩ := taken
      have move := workerStep_moves found small (nonzero w found tested) base
      exact audited.worker_step found (by rw [tested]; nofun) move rfl rfl rfl rfl rfl rfl
        (fun k apart => update_of_ne apart _ _) (Or.inl (update_self ..)) fun _ joined => joined
    · rename_i running
      have alive : s.stages j ≠ .exited := by rw [running]; nofun
      have next (other : w.pc ≠ .claimCommit) (s' : ShutPool)
          (taken : (s.pool.workerStep cfg j ok).map (fun p => { s with pool := p }) = some s') : Audited cfg low s' := by
        obtain ⟨p', base, rfl⟩ := Option.map_eq_some_iff.mp taken
        have move := workerStep_moves found small (fun here => absurd here other) base
        exact audited.worker_step found alive move rfl rfl rfl rfl rfl rfl (fun _ _ => rfl) (Or.inl running)
          fun _ joined => joined
      have awake (other : w.pc ≠ .claimCommit) (s' : ShutPool)
          (taken : (s.pool.workerStep cfg j ok).map (fun p => ({ s with pool := p }.setEnded w.slot .live)) = some s') :
          Audited cfg low s' := by
        obtain ⟨p', base, rfl⟩ := Option.map_eq_some_iff.mp taken
        have move := workerStep_moves found small (fun here => absurd here other) base
        exact audited.worker_step found alive move rfl rfl rfl rfl rfl rfl (fun _ _ => rfl) (Or.inl running)
          fun _ joined => ShutPool.setEnded_joined (by nofun) joined
      have fails : Audited cfg low s.fail :=
        audited.worker_step found alive .fail rfl rfl rfl rfl rfl rfl (fun _ _ => rfl) (Or.inl running) fun _ joined => joined
      cases pc : w.pc <;> simp only [pc, Option.map_map] at taken next awake
      case testRequest =>
        cases taken
        exact audited.stage_step found alive (by rw [pc]; rfl) rfl rfl rfl rfl rfl rfl rfl rfl fun _ joined => joined
      case sleepTest =>
        split at taken
        · exact next (by nofun) s' taken
        · cases taken
          exact audited.goto_step found running (by rw [pc]; rfl) rfl fun _ => trivial
      case sleepSet => exact awake (by nofun) s' taken
      case poll =>
        split at taken
        · cases taken
          exact audited.stage_step found alive (by rw [pc]; rfl) rfl rfl rfl rfl rfl rfl rfl rfl fun _ joined => joined
        · exact next (by nofun) s' taken
      case wakeTest =>
        split at taken
        · exact next (by nofun) s' taken
        · cases taken
          exact audited.goto_step found running (by rw [pc]; rfl) rfl fun _ => trivial
      case wakeSet => exact awake (by nofun) s' taken
      case read =>
        split at taken
        · cases taken
          exact fails
        · split at taken
          · cases taken
            exact audited.goto_step found running (by rw [pc]; rfl) rfl fun _ => trivial
          · exact next (by nofun) s' taken
      case claimCommit =>
        split at taken <;> cases taken
        · exact audited.stage_step found alive (by rw [pc]; rfl) rfl rfl rfl rfl rfl rfl rfl rfl fun _ joined => joined
        · exact audited.goto_step found running (by rw [pc]; rfl) rfl fun _ => trivial
      all_goals exact next (by nofun) s' taken

end Workers

section Shutters
variable {cfg : ThreadpoolConfig} {low i : Nat} {s s' : ShutPool} {pc : ShutdownPc}

theorem ShutPool.Counted.start (s : ShutPool) : s.Counted 0 0 := by
  refine ⟨Nat.zero_le _, Nat.le_refl _, fun _ m below => ?_⟩
  omega

theorem ShutPool.Counted.add {k done : Nat} (counted : s.Counted k done) (within : k < s.pool.liveThreads) (gone : s.Gone k) :
    s.Counted (k + 1) (done + 1) := by
  obtain ⟨_, least, all⟩ := counted
  refine ⟨within, by omega, fun equal m below => ?_⟩
  by_cases last : m = k
  · rw [last]
    exact gone
  · exact all (by omega) m (by omega)

theorem ShutPool.Counted.pass {k done : Nat} (counted : s.Counted k done) (within : k < s.pool.liveThreads) :
    s.Counted (k + 1) done := by
  obtain ⟨_, least, _⟩ := counted
  refine ⟨within, by omega, fun equal => ?_⟩
  omega

/-- When the worker in every entry that counts has come to its end, all workers have: there are no more of them. -/
theorem Draining.all_exited (draining : Draining cfg low s) (gone : ∀ k < s.pool.liveThreads, s.Gone k) (j : Nat) (w : Worker)
    (found : s.pool.workers j = some w) : s.stages j = .exited := by
  have handle (k : Nat) (below : k < s.pool.liveThreads) :
      s.handle k = some ((s.handle k).getD 0) ∧ s.stages ((s.handle k).getD 0) = .exited := by
    obtain ⟨m, named, exited⟩ := gone k below
    rw [named]
    exact ⟨rfl, exited⟩
  have apart : Set.InjOn (fun k => (s.handle k).getD 0) (Finset.range s.pool.liveThreads) := by
    intro k member m member' same
    have first := draining.handles k _ (handle k (by simpa using member)).1
    have second := draining.handles m _ (handle m (by simpa using member')).1
    dsimp only at same
    rw [same, second] at first
    exact (Option.some.inj first).symm
  have among : (Finset.range s.pool.liveThreads).image (fun k => (s.handle k).getD 0) ⊆ Finset.range s.pool.created := by
    intro m member
    obtain ⟨k, below, rfl⟩ := Finset.mem_image.mp member
    have slot := draining.handles k _ (handle k (by simpa using below)).1
    obtain ⟨v, seen, _⟩ := Option.map_eq_some_iff.mp slot
    exact Finset.mem_range.mpr (draining.bounded _ v seen)
  have all := Finset.eq_of_subset_of_card_le among (by
    rw [Finset.card_image_of_injOn apart, Finset.card_range, Finset.card_range]
    exact draining.crew)
  have member : j ∈ (Finset.range s.pool.liveThreads).image (fun k => (s.handle k).getD 0) := by
    rw [all]
    exact Finset.mem_range.mpr (draining.bounded j w found)
  obtain ⟨k, below, rfl⟩ := Finset.mem_image.mp member
  exact (handle k (by simpa using below)).2

/-- An index whose cell is intact is one of those that have been committed. -/
theorem Draining.intact_below {r : Nat} (draining : Draining cfg low s) (intact : s.pool.ring.Intact cfg low r) :
    r < s.pool.ring.commitHead := by
  obtain ⟨within, _⟩ := List.getElem?_eq_some_iff.mp intact.2
  have length := draining.length
  have complete := draining.complete
  omega

theorem Audited.shutter_step (audited : Audited cfg low s) (pc : ShutdownPc) (onward : Onward cfg low (.shutter i) s s') (accounts : Accounts s')
    (shutters : s'.shutters = update s.shutters i pc) (facts : ShutFacts cfg low s' i pc)
    (workers : s'.pool.workers = s.pool.workers) (stages : s'.stages = s.stages)
    (request : s'.pool.ring.requestHead ≤ s.pool.ring.commitHead)
    (joined : ∀ k, s'.ended k = .joined → s.ended k = .joined ∨ s'.Gone k)
    (halted : s'.halted = true → s.halted = true ∨
      s.pool.ring.commitHead ≤ s.pool.ring.requestHead ∧ ∀ k < s.pool.liveThreads, s.Gone k) : Audited cfg low s' := by
  refine ⟨audited.1.later onward request (fun j v found => ?_) (fun k => ?_) (Pool.slotOf_congr workers) ?_ joined
    fun stopped => ?_, accounts⟩
  · exact Or.inl ⟨by simp, by rw [← workers]; exact found, congrFun stages j⟩
  · rw [shutters]
    by_cases same : k = i
    · subst k
      rw [update_self]
      exact Or.inr facts
    · rw [update_of_ne same]
      exact Or.inl ⟨by simpa using same, rfl⟩
  · intro j v found
    rw [onward.created]
    rw [workers] at found
    exact audited.1.bounded j v found
  · have both : s.pool.ring.commitHead ≤ s.pool.ring.requestHead ∧
        ∀ j w, s.pool.workers j = some w → s.stages j = .exited := by
      rcases halted stopped with before | ⟨drained, gone⟩
      · exact audited.1.halted before
      · exact ⟨drained, audited.1.all_exited gone⟩
    rw [onward.commit, workers, stages]
    exact ⟨Nat.le_trans both.1 onward.request, both.2⟩

/-- A step that touches nothing but where the thread stands and what nobody relies on. -/
theorem Audited.shutter_silent (audited : Audited cfg low s) (pool : s'.pool = s.pool)
    (shutters : s'.shutters = update s.shutters i pc) (same : pc.holding = (s.shutters i).holding)
    (facts : ShutFacts cfg low s' i pc) (flag : s'.shuttingDown = s.shuttingDown) (handle : s'.handle = s.handle)
    (stages : s'.stages = s.stages) (drains : s'.drains = s.drains) (cleaned : s'.cleaned = s.cleaned)
    (joined : ∀ k, s'.ended k = .joined → s.ended k = .joined ∨ s'.Gone k)
    (halted : s'.halted = true → s.halted = true ∨
      s.pool.ring.commitHead ≤ s.pool.ring.requestHead ∧ ∀ k < s.pool.liveThreads, s.Gone k) : Audited cfg low s' := by
  refine audited.shutter_step pc (onward_of_same flag (by rw [pool]) (by rw [pool]) (by rw [pool]) (by rw [pool]) (by rw [pool])
      (by rw [pool]) (by rw [pool]) handle (by rw [stages]; exact fun _ => id) (by rw [drains]; exact fun _ => id)
      fun _ => by rw [pool]) ?_ shutters facts (by rw [pool]) stages (by rw [pool]; exact audited.1.request) joined halted
  exact audited.2.shutter pc same shutters (by rw [pool]) (by rw [pool]) drains (by rw [pool]) cleaned (by rw [pool]) (by rw [pool])

theorem Audited.shutter_goto (audited : Audited cfg low s) (same : pc.holding = (s.shutters i).holding)
    (facts : ShutFacts cfg low (s.goto i pc) i pc) : Audited cfg low (s.goto i pc) :=
  audited.shutter_silent rfl rfl same facts rfl rfl rfl rfl rfl (fun _ => Or.inl) Or.inl

theorem Audited.fail (audited : Audited cfg low s) : Audited cfg low s.fail := by
  obtain ⟨draining, accounts⟩ := audited
  refine ⟨⟨draining.flag, draining.quiet, draining.complete, draining.length, draining.request, draining.window,
    draining.unclaimed, draining.worker, fun i => ?_, draining.crew, draining.bounded, draining.handles, draining.joined,
    draining.halted⟩, accounts.keep rfl rfl rfl rfl rfl rfl fun _ _ => rfl⟩
  have onward : Onward cfg low (.worker 0) s s.fail :=
    onward_of_same rfl rfl rfl rfl (Nat.le_refl _) rfl rfl rfl rfl (fun _ => id) (fun _ => id) fun _ => rfl
  exact (draining.shutter i).later rfl onward (by nofun)

/-- A thread in `Threadpool_Shutdown` claims a committed index. -/
theorem Audited.shutter_claim (audited : Audited cfg low s) (free : (s.shutters i).holding = none)
    (below : s.pool.ring.requestHead < s.pool.ring.commitHead) :
    Audited cfg low ({ s with
        pool := { s.pool with ring := { s.pool.ring with requestHead := s.pool.ring.requestHead + 1 } },
        drains := s.drains ++ [(s.pool.ring.requestHead, i)] }.goto i (.testCleanup s.pool.ring.requestHead)) := by
  have onward : Onward cfg low (.shutter i) s ({ s with
        pool := { s.pool with ring := { s.pool.ring with requestHead := s.pool.ring.requestHead + 1 } },
        drains := s.drains ++ [(s.pool.ring.requestHead, i)] }.goto i (.testCleanup s.pool.ring.requestHead)) :=
    onward_of_same rfl rfl rfl rfl (Nat.le_succ _) rfl rfl rfl rfl (fun _ => id)
      (fun _ member => List.mem_append_left _ member) fun _ => rfl
  have intact := audited.1.unclaimed _ (Nat.le_refl _) below
  exact audited.shutter_step _ onward (audited.2.drain free) rfl intact rfl rfl below (fun _ => Or.inl) Or.inl

/-- The `udata` of an index whose cleanup has been called is cleared: no one else has anything to do with its cell. -/
theorem Audited.shutter_clear {rh : Nat} (audited : Audited cfg low s) (free : (s.shutters i).holding = none)
    (facts : s.claimed rh (.shutter i) ∧ low ≤ rh ∧ rh < s.pool.ring.commitHead) :
    Audited cfg low ({ s with pool := { s.pool with
      ring := s.pool.ring.write cfg rh { s.pool.ring.at cfg rh with udata := 0 } } }.goto i .adjLoad) := by
  obtain ⟨own, lowest, below⟩ := facts
  have window := audited.1.window
  have claimed : rh < s.pool.ring.requestHead := (audited.2.claims rh).mp ⟨_, own⟩
  have kept (r : Nat) (apart : r ≠ rh) (intact : s.pool.ring.Intact cfg low r) :
      (s.pool.ring.write cfg rh { s.pool.ring.at cfg rh with udata := 0 }).at cfg r = s.pool.ring.at cfg r := by
    have within := audited.1.intact_below intact
    exact TaskRing.write_at_other low apart intact.1 (by omega) lowest (by omega)
  refine audited.shutter_step .adjLoad ⟨rfl, rfl, rfl, rfl, Nat.le_refl _, rfl, rfl, rfl, rfl, fun _ => id, fun _ => id,
    fun r above intact => ?_, fun r d held other intact => ?_⟩ ?_ rfl trivial rfl rfl audited.1.request (fun _ => Or.inl) Or.inl
  · change s.pool.ring.requestHead ≤ r at above
    exact congrArg MarkedTask.toThreadpoolTask (kept r (by omega) intact)
  · have apart : r ≠ rh := by
      rintro rfl
      exact other (audited.2.ledger.holder_unique held own).symm
    exact congrArg MarkedTask.toThreadpoolTask (kept r apart intact)
  · exact audited.2.shutter .adjLoad (by rw [free]; rfl) rfl rfl rfl rfl rfl rfl rfl rfl

theorem Audited.shutdownStep (audited : Audited cfg low s)
    (committed : ∀ rh, s.shutters i = .drainCas rh → s.pool.ring.requestHead = rh → rh < s.pool.ring.commitHead)
    (taken : s.shutdownStep cfg i = some s') : Audited cfg low s' := by
  have facts := audited.1.shutter i
  cases pc : s.shutters i <;> rw [pc] at facts <;> simp only [ShutPool.shutdownStep, pc] at taken
  case idle res => cases taken
  case setFlag =>
    cases taken
    exact audited.shutter_silent rfl rfl (by rw [pc]; rfl) ⟨by rintro ⟨⟩, .start _⟩ audited.1.flag.symm rfl rfl rfl rfl
      (fun _ => Or.inl) Or.inl
  case notify last k done =>
    cases taken
    obtain ⟨drained, counted⟩ := facts
    split
    · rename_i within
      exact audited.shutter_goto (by rw [pc]; rfl) ⟨drained, counted, within⟩
    · have every : k = s.pool.liveThreads := by
        have most := counted.1
        omega
      subst every
      exact audited.shutter_goto (by rw [pc]; rfl) ⟨drained, counted⟩
  case testJoined last k done =>
    cases taken
    obtain ⟨drained, counted, within⟩ := facts
    split
    · rename_i joined
      exact audited.shutter_goto (by rw [pc]; rfl) ⟨drained, counted.add within (audited.1.joined k joined)⟩
    · exact audited.shutter_goto (by rw [pc]; rfl) ⟨drained, counted, within⟩
  case testShutdown last k done =>
    cases taken
    split <;> exact audited.shutter_goto (by rw [pc]; rfl) facts
  case join last k done =>
    obtain ⟨drained, counted, within⟩ := facts
    split at taken
    · cases taken
      exact audited.fail
    · rename_i j named
      split at taken
      · cases taken
      · rename_i exited
        split at taken <;> cases taken
        · exact audited.shutter_goto (by rw [pc]; rfl) ⟨drained, counted.pass within⟩
        · exact audited.shutter_silent rfl rfl (by rw [pc]; rfl) ⟨drained, counted, within, j, named, not_not.mp exited⟩ rfl rfl
            rfl rfl rfl (fun _ => Or.inl) Or.inl
  case setJoined last k done =>
    cases taken
    obtain ⟨drained, counted, within, gone⟩ := facts
    refine audited.shutter_silent rfl rfl (by rw [pc]; rfl) ⟨drained, counted.add within gone⟩ rfl rfl rfl rfl rfl
      (fun m joined => ?_) Or.inl
    by_cases same : m = k
    · rw [same]
      exact Or.inr gone
    · exact Or.inl ((update_of_ne same _ _).symm.trans joined)
  case close last k done =>
    cases taken
    obtain ⟨drained, counted, within⟩ := facts
    exact audited.shutter_silent rfl rfl (by rw [pc]; rfl) ⟨drained, counted.pass within⟩ rfl rfl rfl rfl rfl (fun _ => Or.inl)
      Or.inl
  case result last done =>
    obtain ⟨drained, counted⟩ := facts
    split at taken <;> cases taken
    · rename_i second
      refine audited.shutter_silent rfl rfl (by rw [pc]; rfl) trivial rfl rfl rfl rfl rfl (fun _ => Or.inl) fun stopped => ?_
      rcases Bool.or_eq_true_iff.mp stopped with before | all
      · exact Or.inl before
      · exact Or.inr ⟨drained second, counted.2.2 (of_decide_eq_true all)⟩
    · exact audited.shutter_goto (by rw [pc]; rfl) trivial
  case drainCommit =>
    cases taken
    exact audited.shutter_goto (by rw [pc]; rfl) (Nat.le_refl s.pool.ring.commitHead)
  case drainRequest ch =>
    cases taken
    have seen : s.pool.ring.commitHead ≤ ch := facts
    split
    · exact audited.shutter_goto (by rw [pc]; rfl) trivial
    · have drained : s.Drained true := fun _ => by omega
      exact audited.shutter_goto (by rw [pc]; rfl) ⟨drained, .start _⟩
  case drainLoad =>
    cases taken
    exact audited.shutter_goto (by rw [pc]; rfl) trivial
  case drainCas rh =>
    split at taken <;> cases taken
    · rename_i here
      have below := committed rh pc here
      subst here
      exact audited.shutter_claim (by rw [pc]; rfl) below
    · exact audited.shutter_goto (by rw [pc]; rfl) trivial
  case testCleanup rh =>
    cases taken
    have intact : s.pool.ring.Intact cfg low rh := facts
    split
    · rename_i none
      have accounts : Accounts (s.goto i .adjLoad) := audited.2.skip (by rw [pc]; rfl) intact.2 none rfl
      exact audited.shutter_step _ (onward_of_same rfl rfl rfl rfl (Nat.le_refl _) rfl rfl rfl rfl (fun _ => id) (fun _ => id)
        fun _ => rfl) accounts rfl trivial rfl rfl audited.1.request (fun _ => Or.inl) Or.inl
    · rename_i present
      exact audited.shutter_goto (by rw [pc]; rfl) ⟨intact, present⟩
  case loadCleanup rh =>
    cases taken
    exact audited.shutter_goto (by rw [pc]; rfl) ⟨facts.1, rfl, facts.2⟩
  case callCleanup rh cleanup =>
    cases taken
    obtain ⟨intact, rfl, present⟩ := facts
    have held : (s.shutters i).holding = some rh := by rw [pc]; rfl
    have accounts := audited.2.clean held intact.2 present (.clearUdata rh) rfl
    have own : s.claimed rh (.shutter i) := (audited.2.ledger.held rh (.shutter i) held).1
    exact audited.shutter_step _ (onward_of_same rfl rfl rfl rfl (Nat.le_refl _) rfl rfl rfl rfl (fun _ => id) (fun _ => id)
      fun _ => rfl) accounts rfl ⟨own, intact.1, audited.1.intact_below intact⟩ rfl rfl audited.1.request (fun _ => Or.inl) Or.inl
  case clearUdata rh =>
    cases taken
    exact audited.shutter_clear (by rw [pc]; rfl) facts
  case adjLoad =>
    cases taken
    exact audited.shutter_goto (by rw [pc]; rfl) trivial
  case adjCas v =>
    split at taken <;> cases taken
    · exact audited.shutter_step .drainCommit (onward_of_same rfl rfl rfl rfl (Nat.le_refl _) rfl rfl rfl rfl
        (fun _ => id) (fun _ => id) fun _ => rfl) (audited.2.shutter .drainCommit (by rw [pc]; rfl) rfl rfl rfl rfl rfl
        rfl rfl rfl) rfl trivial rfl rfl audited.1.request (fun _ => Or.inl) Or.inl
    · exact audited.shutter_goto (by rw [pc]; rfl) trivial

end Shutters

end Kinetic
