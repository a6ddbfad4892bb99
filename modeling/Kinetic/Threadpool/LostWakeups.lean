import Kinetic.Threadpool.WakeupWorkers

namespace Kinetic
open Transition Function

section Runs
variable {cfg : ThreadpoolConfig} {start p : Pool}

theorem WakeInv.initial (init : threadpoolInit cfg = some start) : WakeInv start := by
  unfold threadpoolInit at init
  dsimp only at init
  split at init
  · cases init
  · split at init
    · cases init
    · cases init
      exact ⟨by simp, by simp, by simp [SchedPc.spawned], by simp, by simp, Or.inr (Or.inl (by simp [Staffed]))⟩

theorem WakeInv.step {p' : Pool} {label : PoolLabel} (inv : WakeInv p) (bounded : Bounded p) (settled : SettledScan p label)
    (taken : poolStep cfg p label = some p') : WakeInv p' := by
  unfold poolStep at taken
  split at taken
  · cases taken
  · cases label with
    | call i task =>
      dsimp only at taken
      split at taken
      · rename_i pc
        split at taken <;> cases taken
        · exact inv
        · exact inv.sched_goto pc rfl (Or.inl rfl)
      · cases taken
    | sched i result => exact inv.schedStep bounded settled taken
    | worker j result => exact inv.workerStep taken

/-- No wake-up is lost in a run in which no thread searches for a sleeping worker while some
worker has found the queue empty and cannot be found yet. -/
theorem pool_no_lost_wakeup (init : threadpoolInit cfg = some start)
    (reach : Reach (poolStep cfg) start SettledScan p) : ¬ LostWakeup cfg p := by
  have inv : Bounded p ∧ WakeInv p := by
    induction reach with
    | start => exact ⟨.initial init, .initial init⟩
    | next _ settled taken ih => exact ⟨ih.1.step taken, ih.2.step ih.1 settled taken⟩
  have workers : 1 ≤ (setDefaults cfg).maxThreads := by
    unfold setDefaults
    dsimp only
    split
    · decide
    · omega
  intro lost
  obtain ⟨idle, committed, live, blocked⟩ := lost
  rcases inv.2.guarded with ⟨j, w, found, restless⟩ | empty | done | ⟨i, k, scan, _⟩
  · obtain ⟨polls, drained⟩ := blocked j w found
    exact restless ⟨by rw [polls]; rfl, drained⟩
  · exact empty (inv.2.live (by omega))
  · omega
  · obtain ⟨res, here⟩ := idle i
    rw [here] at scan
    cases scan

/-- The only worker has gone to sleep after its first task, and the next call wakes it. -/
def wokenWorker : List PoolLabel :=
  callSteps 0 ⟨10, 0, 20⟩ 27 ++ workSteps 0 22 ++ callSteps 0 ⟨11, 0, 21⟩ 20

theorem pool_no_lost_wakeup_woken :
    ∃ start p, threadpoolInit ⟨3, 1⟩ = some start ∧ Reach (poolStep ⟨3, 1⟩) start SettledScan p ∧
      p.ring.requestHead < p.ring.commitHead ∧ ¬ LostWakeup ⟨3, 1⟩ p := by
  have trace : poolTrace ⟨3, 1⟩ SettledScan wokenWorker (fun p => decide (p.ring.requestHead < p.ring.commitHead)) =
      some true := by decide +kernel
  obtain ⟨start, p, init, reach, seen⟩ := poolTrace_reach trace
  exact ⟨start, p, init, reach, of_decide_eq_true seen, pool_no_lost_wakeup init reach⟩

/-- The only worker finds the queue empty; a task is scheduled, its search finds the worker still `AWAKE`
and all workers started; then the worker goes to sleep. -/
def missedWorker : List PoolLabel :=
  callSteps 0 ⟨10, 0, 20⟩ 27 ++ workSteps 0 20 ++ callSteps 0 ⟨11, 0, 21⟩ 21 ++ workSteps 0 2

theorem pool_loses_wakeup :
    ∃ start p, threadpoolInit ⟨3, 1⟩ = some start ∧ Reach (poolStep ⟨3, 1⟩) start (fun _ _ => True) p ∧
      LostWakeup ⟨3, 1⟩ p := by
  have trace : poolTrace ⟨3, 1⟩ (fun _ _ => True) missedWorker (fun p => decide (p.sched 0 = .idle (some (true, 0)) ∧
      p.ring.requestHead < p.ring.commitHead ∧ p.liveThreads = 1 ∧ p.created = 1 ∧ p.workers 0 = some ⟨0, 1, .poll⟩ ∧
      p.pipes 1 = 0)) = some true := by decide +kernel
  obtain ⟨start, init, rest⟩ := Option.bind_eq_some_iff.mp trace
  obtain ⟨p, run, seen⟩ := Option.map_eq_some_iff.mp rest
  obtain ⟨sched, committed, live, created, worker, pipe⟩ := of_decide_eq_true seen
  have reach : Reach (poolStep ⟨3, 1⟩) start (fun _ _ => True) p := Reach.start.exec (fun _ _ _ => trivial) run
  have bounded : Bounded p := reach.invariant (.initial init) fun _ _ _ bounded _ taken => bounded.step taken
  refine ⟨start, p, init, reach, fun i => ?_, committed, live, fun j w found => ?_⟩
  · by_cases same : i = 0
    · exact ⟨_, same ▸ sched⟩
    · cases init
      refine ⟨none, exec_sched_other run fun label member => ?_⟩
      have callers : ∀ label ∈ missedWorker, label.caller = none ∨ label.caller = some 0 := by decide
      rcases callers label member with worker | caller
      · rw [worker]
        simp
      · rw [caller]
        simpa using Ne.symm same
  · have first : j = 0 := by
      have := bounded j w found
      omega
    subst j
    cases worker.symm.trans found
    exact ⟨rfl, pipe⟩

end Runs

end Kinetic
