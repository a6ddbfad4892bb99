import Kinetic.Threadpool.RingSteps

namespace Kinetic
open Ring Transition

/-- A worker does not start to claim while nothing has been committed yet: the test
`rh > ch - 1` for an empty queue underflows when `task_commit_head` is 0. -/
def CommittedClaim (p : Pool) : PoolLabel → Prop
  | .worker j _ => ∀ w ∈ p.workers j, w.pc = .claimCommit → p.ring.commitHead ≠ 0
  | _ => True

instance (p : Pool) (label : PoolLabel) : Decidable (CommittedClaim p label) :=
  match label with
  | .call _ _ => inferInstanceAs (Decidable True)
  | .sched _ _ => inferInstanceAs (Decidable True)
  | .worker j _ => inferInstanceAs (Decidable (∀ w ∈ p.workers j, w.pc = .claimCommit → p.ring.commitHead ≠ 0))

instance (p : Pool) : Decidable (NotWrapping p) := inferInstanceAs (Decidable (_ < _))

/-- The index whose cell a thread in `Threadpool_Schedule` is writing. -/
def SchedPc.writing : SchedPc → Option Nat
  | .writeTask _ wh _ => some wh
  | .writeCleanup _ wh _ => some wh
  | .writeUdata _ wh _ => some wh
  | .writeMark _ wh _ => some wh
  | _ => none

/-- The index that a worker has claimed and not yet copied. -/
def WorkerPc.copying : WorkerPc → Option Nat
  | .assertMark rh => some rh
  | .copyTask rh => some rh
  | .copyCleanup rh _ => some rh
  | .copyUdata rh _ _ => some rh
  | _ => none

section Traces
variable {cfg : ThreadpoolConfig}

/-- A given run from a fresh pool, with what is observed of its last state. -/
def poolTrace {α : Type} (cfg : ThreadpoolConfig) (ok : Pool → PoolLabel → Prop) [∀ p label, Decidable (ok p label)]
    (labels : List PoolLabel) (view : Pool → α) : Option α :=
  (threadpoolInit cfg).bind fun start =>
    (exec (poolStep cfg) (fun p label => decide (ok p label)) start labels).map view

theorem poolTrace_reach {α : Type} {ok : Pool → PoolLabel → Prop} [∀ p label, Decidable (ok p label)]
    {labels : List PoolLabel} {view : Pool → α} {seen : α} (trace : poolTrace cfg ok labels view = some seen) :
    ∃ start p, threadpoolInit cfg = some start ∧ Reach (poolStep cfg) start ok p ∧ view p = seen := by
  obtain ⟨start, init, rest⟩ := Option.bind_eq_some_iff.mp trace
  obtain ⟨p, run, seen⟩ := Option.map_eq_some_iff.mp rest
  exact ⟨start, p, init, Reach.start.exec (fun _ _ => of_decide_eq_true) run, seen⟩

def callSteps (i : Nat) (task : ThreadpoolTask) (n : Nat) : List PoolLabel :=
  .call i task :: List.replicate n (.sched i true)

def workSteps (j n : Nat) : List PoolLabel := List.replicate n (.worker j true)

/-- Two callers schedule a task each and start a worker each. The second worker claims the first task, the first one runs the
second task meanwhile. -/
def twoTasks : List PoolLabel :=
  callSteps 0 ⟨10, 0, 20⟩ 27 ++ callSteps 1 ⟨11, 0, 21⟩ 29 ++ workSteps 1 14 ++ workSteps 0 18 ++ workSteps 1 4

/-- Caller 0 has reserved index 0 and stops; caller 1 schedules twice, starting
a worker and then waking it, and the worker claims index 0. -/
def earlyClaim : List PoolLabel :=
  callSteps 0 ⟨10, 0, 20⟩ 3 ++ callSteps 1 ⟨11, 0, 21⟩ 21 ++ workSteps 0 5 ++ callSteps 1 ⟨11, 0, 21⟩ 14 ++ workSteps 0 7

/-- Three more workers claim 1, 2 and 3 and each moves the release head, past index 0 first; caller 1 reserves
index 8, which has the cell of index 0, and writes to it between the assertion and the copy of the first worker. -/
def overtakenClaim : List PoolLabel :=
  earlyClaim ++ callSteps 1 ⟨11, 0, 21⟩ 23 ++ workSteps 1 14 ++ callSteps 1 ⟨11, 0, 21⟩ 25 ++ workSteps 2 14 ++
    callSteps 1 ⟨11, 0, 21⟩ 27 ++ workSteps 3 14 ++ callSteps 1 ⟨11, 0, 21⟩ 21 ++ callSteps 1 ⟨11, 0, 21⟩ 21 ++
    callSteps 1 ⟨12, 0, 22⟩ 5 ++ List.replicate 10 (.sched 0 true) ++ workSteps 0 1 ++ List.replicate 3 (.sched 1 true) ++
    workSteps 0 4 ++ workSteps 1 4 ++ workSteps 0 3

end Traces

section Runs
variable {cfg : ThreadpoolConfig} {start p : Pool}

theorem threadpoolInit_fits (init : threadpoolInit cfg = some start) :
    (setDefaults cfg).taskRingbufSize2 ≤ threadpoolMaxRingbufSize2 := by
  unfold threadpoolInit at init
  dsimp only at init
  split at init
  · cases init
  · omega

theorem PoolInv.initial (init : threadpoolInit cfg = some start) :
    PoolInv cfg (threadpoolInit_fits init) start fun _ => .free := by
  have fits := threadpoolInit_fits init
  have blank := init
  unfold threadpoolInit at blank
  dsimp only at blank
  rw [if_neg (Nat.not_lt.mpr fits)] at blank
  split at blank
  · cases blank
  · cases blank
    refine ⟨Valid.start _ _ _ fun _ => rfl, fun _ => trivial, fun _ _ found => ?_, rfl, rfl, fun _ member => ?_, rfl⟩
    · cases found
    · cases member

theorem PoolInv.step {fits : (setDefaults cfg).taskRingbufSize2 ≤ threadpoolMaxRingbufSize2} {p' : Pool}
    {phase : Nat → Phase Nat Nat} {label : PoolLabel} (inv : PoolInv cfg fits p phase)
    (ok : NotWrapping p ∧ CommittedClaim p label) (taken : poolStep cfg p label = some p') :
    ∃ phase', PoolInv cfg fits p' phase' := by
  simp only [poolStep, inv.running, Bool.false_eq_true, if_false] at taken
  cases label with
  | call i task =>
    dsimp only at taken
    split at taken
    · split at taken <;> cases taken
      · exact ⟨phase, inv⟩
      · exact ⟨phase, inv.sched_goto trivial⟩
    · cases taken
  | sched i result => exact inv.schedStep ok.1 taken
  | worker j result => exact inv.workerStep ok.1 ok.2 taken

theorem pool_invariant (init : threadpoolInit cfg = some start)
    (reach : Reach (poolStep cfg) start (fun p label => NotWrapping p ∧ CommittedClaim p label) p) :
    ∃ phase, PoolInv cfg (threadpoolInit_fits init) p phase := by
  induction reach with
  | start => exact ⟨_, .initial init⟩
  | next _ ok taken ih =>
    obtain ⟨phase, inv⟩ := ih
    exact inv.step ok taken

theorem PoolInv.writing {fits : (setDefaults cfg).taskRingbufSize2 ≤ threadpoolMaxRingbufSize2}
    {phase : Nat → Phase Nat Nat} {i wh : Nat} (inv : PoolInv cfg fits p phase)
    (writing : (p.sched i).writing = some wh) : phase wh = .reserved i := by
  have facts := inv.sched i
  cases pc : p.sched i <;> rw [pc] at facts writing <;> cases writing
  case writeTask => exact facts.1
  case writeCleanup => exact facts.1.1
  case writeUdata => exact facts.1.1
  case writeMark => exact facts.1.1

theorem PoolInv.copying {fits : (setDefaults cfg).taskRingbufSize2 ≤ threadpoolMaxRingbufSize2}
    {phase : Nat → Phase Nat Nat} {j rh : Nat} {w : Worker} (inv : PoolInv cfg fits p phase)
    (found : p.workers j = some w) (copying : w.pc.copying = some rh) : phase rh = .claimed j := by
  have facts := inv.worker j w found
  cases pc : w.pc <;> rw [pc] at facts copying <;> cases copying
  case assertMark => exact facts
  case copyTask => exact facts
  case copyCleanup => exact facts.1
  case copyUdata => exact facts.1

/-- In every state of such a run the indices have been claimed in order, each by one worker, every task run for
an index is the one of the call that reserved it, and no cell is written to while a worker has still to copy it. -/
theorem pool_delivers (init : threadpoolInit cfg = some start)
    (reach : Reach (poolStep cfg) start (fun p label => NotWrapping p ∧ CommittedClaim p label) p) :
    p.claims.map Prod.fst = List.range p.ring.requestHead ∧ p.ring.reserved.length = p.ring.reserveHead ∧
      (∀ e ∈ p.executed, ∃ t, p.ring.reserved[e.1]? = some t ∧ t.task = e.2.1 ∧ t.udata = e.2.2) ∧
      ∀ i wh j w rh, (p.sched i).writing = some wh → p.workers j = some w → w.pc.copying = some rh →
        cfg.slot wh ≠ cfg.slot rh := by
  obtain ⟨phase, inv⟩ := pool_invariant init reach
  refine ⟨inv.claims, inv.reserved, inv.executed, fun i wh j w rh writing found copying same => ?_⟩
  have reserved := inv.writing writing
  have claimed := inv.copying found copying
  have window := inv.valid.held_window (by rw [reserved]; rfl : heldBy (phase wh) = some (.sched i))
  have window' := inv.valid.held_window (by rw [claimed]; rfl : heldBy (phase rh) = some (.worker j))
  rw [slot_eq, slot_eq] at same
  have equal := slot_injective window.1 window.2 window'.1 window'.2 same
  rw [equal, claimed] at reserved
  cases reserved

theorem pool_delivers_two_tasks :
    ∃ start p, threadpoolInit ⟨3, 4⟩ = some start ∧
      Reach (poolStep ⟨3, 4⟩) start (fun p label => NotWrapping p ∧ CommittedClaim p label) p ∧
      p.executed = [(1, 11, 21), (0, 10, 20)] ∧ (∃ t, p.ring.reserved[0]? = some t ∧ t.task = 10 ∧ t.udata = 20) ∧
        ∃ t, p.ring.reserved[1]? = some t ∧ t.task = 11 ∧ t.udata = 21 := by
  have trace : poolTrace ⟨3, 4⟩ (fun p label => NotWrapping p ∧ CommittedClaim p label) twoTasks Pool.executed =
      some [(1, 11, 21), (0, 10, 20)] := by decide +kernel
  obtain ⟨start, p, init, reach, executed⟩ := poolTrace_reach trace
  have delivers := (pool_delivers init reach).2.2.1
  exact ⟨start, p, init, reach, executed, delivers (0, 10, 20) (by rw [executed]; decide),
    delivers (1, 11, 21) (by rw [executed]; decide)⟩

/-- Without any assertion having failed, a worker runs the task of index 8 for index 0. -/
theorem pool_runs_wrong_task :
    ∃ start p, threadpoolInit ⟨3, 4⟩ = some start ∧ Reach (poolStep ⟨3, 4⟩) start (fun p _ => NotWrapping p) p ∧
      p.failed = false ∧ p.executed = [(0, 12, 22)] ∧ p.ring.reserved[0]? = some ⟨10, 0, 20⟩ := by
  have trace : poolTrace ⟨3, 4⟩ (fun p _ => NotWrapping p) overtakenClaim
      (fun p => (p.failed, p.executed, p.ring.reserved[0]?)) = some (false, [(0, 12, 22)], some ⟨10, 0, 20⟩) := by
    decide +kernel
  obtain ⟨start, p, init, reach, seen⟩ := poolTrace_reach trace
  simp only [Prod.mk.injEq] at seen
  exact ⟨start, p, init, reach, seen⟩

end Runs

end Kinetic
