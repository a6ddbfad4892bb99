import Kinetic.Threadpool.Accounting

namespace Kinetic
open Transition Function

section Threads
variable {cfg : ThreadpoolConfig} {start : Pool} {s s' : ShutPool} {label : ShutLabel}

/-- Steps of the workers, of callers 0 and 1 of `Threadpool_Schedule` and of callers 0 and 1 of `Threadpool_Shutdown`. -/
def ShutLabel.few : ShutLabel → Bool
  | .call i _ => i < 2
  | .sched i _ => i < 2
  | .worker _ _ => true
  | .shutdown i => i < 2
  | .shut i => i < 2

theorem ShutPool.schedStep_other {i k : Nat} {ok : Bool} (taken : s.schedStep cfg i ok = some s') (other : k ≠ i) :
    s'.pool.sched k = s.pool.sched k ∧ s'.shutters = s.shutters := by
  obtain ⟨moved | ⟨back, m, _, moved⟩ | failed, shutters, _⟩ := ShutPool.schedStep_cases taken
  · exact ⟨Kinetic.schedStep_other moved other, shutters⟩
  · rw [moved]
    exact ⟨update_of_ne other _ _, shutters⟩
  · rw [failed]
    exact ⟨rfl, shutters⟩

theorem ShutPool.workerStep_threads {j : Nat} {ok : Bool} (taken : s.workerStep cfg j ok = some s') :
    s'.pool.sched = s.pool.sched ∧ s'.shutters = s.shutters := by
  obtain ⟨moved | same | failed | ⟨w, pc, _, _, moved⟩, shutters, _⟩ := ShutPool.workerStep_cases taken
  · exact ⟨workerStep_sched moved, shutters⟩
  · rw [same]
    exact ⟨rfl, shutters⟩
  · rw [failed]
    exact ⟨rfl, shutters⟩
  · rw [moved]
    exact ⟨rfl, shutters⟩

theorem ShutPool.shutdownStep_other {i k : Nat} (taken : s.shutdownStep cfg i = some s') (other : k ≠ i) :
    s'.pool.sched = s.pool.sched ∧ s'.shutters k = s.shutters k := by
  obtain ⟨⟨ring, failed, pool⟩, shutters⟩ := ShutPool.shutdownStep_frame taken
  refine ⟨by rw [pool], ?_⟩
  rcases shutters with same | ⟨pc, moved⟩
  · rw [same]
  · rw [moved, update_of_ne other]

/-- A run with no more than two callers of each function leaves the other threads where they were. -/
theorem shutStep_few {k : Nat} (taken : shutStep cfg s label = some s') (few : label.few = true) (other : 2 ≤ k) :
    s'.pool.sched k = s.pool.sched k ∧ s'.shutters k = s.shutters k := by
  unfold shutStep at taken
  split at taken
  · cases taken
  · cases label with
    | call i task =>
      have apart : k ≠ i := by
        have below := of_decide_eq_true few
        omega
      dsimp only at taken
      split at taken
      · split at taken
        · cases taken
          exact ⟨rfl, rfl⟩
        · split at taken <;> cases taken
          · exact ⟨rfl, rfl⟩
          · exact ⟨update_of_ne apart _ _, rfl⟩
      · cases taken
    | sched i result =>
      have below := of_decide_eq_true few
      obtain ⟨sched, shutters⟩ := ShutPool.schedStep_other (k := k) taken (by omega)
      exact ⟨sched, congrFun shutters k⟩
    | worker j result =>
      obtain ⟨sched, shutters⟩ := ShutPool.workerStep_threads taken
      exact ⟨congrFun sched k, congrFun shutters k⟩
    | shutdown i =>
      have below := of_decide_eq_true few
      dsimp only at taken
      split at taken
      · cases taken
        exact ⟨rfl, update_of_ne (by omega) _ _⟩
      · cases taken
    | shut i =>
      have below := of_decide_eq_true few
      obtain ⟨sched, shutters⟩ := ShutPool.shutdownStep_other (k := k) taken (by omega)
      exact ⟨congrFun sched k, shutters⟩

theorem few_idle {ok : ShutPool → ShutLabel → Prop} (init : threadpoolInit cfg = some start)
    (reach : Reach (shutStep cfg) (.fresh start) (fun s label => ok s label ∧ label.few = true) s) (k : Nat) (other : 2 ≤ k) :
    s.pool.sched k = .idle none ∧ s.shutters k = .idle none := by
  induction reach with
  | start => exact ⟨(threadpoolInit_blank init).2.1 k, rfl⟩
  | next _ met taken ih =>
    obtain ⟨sched, shutters⟩ := shutStep_few taken met.2 other
    exact ⟨sched.trans ih.1, shutters.trans ih.2⟩

end Threads

section Tasks
variable {cfg : ThreadpoolConfig} {start : Pool} {s s' : ShutPool} {label : ShutLabel}

/-- In every state of an orderly run in which nobody is in `Threadpool_Shutdown` and one has returned true, every task
accepted by a `Threadpool_Schedule` has either been run, once, or been given, once, to its cleanup if it has one. -/
theorem shutdown_accounts_for_tasks (init : threadpoolInit cfg = some start)
    (reach : Reach (shutStep cfg) (.fresh start) OrderlyShutdown s) (returned : s.Returned)
    (halted : s.halted = true) (r : Nat) (task : ThreadpoolTask) (scheduled : s.pool.ring.reserved[r]? = some task) :
    s.pool.executed.filter (·.1 == r) = [(r, task.task, task.udata)] ∧ s.cleaned.filter (·.1 == r) = [] ∨
      s.pool.executed.filter (·.1 == r) = [] ∧
        s.cleaned.filter (·.1 == r) = if task.cleanup = 0 then [] else [(r, task.cleanup, task.udata)] := by
  rcases accounted init reach with ⟨calm, _⟩ | ⟨low, draining, accounts⟩
  · rw [calm.calm.halted] at halted
    cases halted
  · obtain ⟨drained, exited⟩ := draining.halted halted
    have free (c : Claimant) : s.holds c = none := by
      cases c with
      | worker j =>
        cases found : s.pool.workers j with
        | none =>
          change (s.pool.workers j).bind _ = none
          rw [found]
          rfl
        | some w =>
          rw [ShutPool.holds_of_found found]
          have place := (draining.worker j w found).2
          rw [exited j w found] at place
          simpa using place
      | shutter i =>
        obtain ⟨res, idle⟩ := returned i
        exact congrArg ShutdownPc.holding idle
    have below : r < s.pool.ring.requestHead := by
      obtain ⟨within, _⟩ := List.getElem?_eq_some_iff.mp scheduled
      have length := draining.length
      have complete := draining.complete
      omega
    obtain ⟨c, own⟩ := (accounts.claims r).mpr below
    have entered := accounts.ledger.entered (free c) own
    unfold ShutPool.log ShutPool.due at entered
    rw [scheduled] at entered
    cases c with
    | worker j => exact Or.inl (Prod.mk.inj entered)
    | shutter i => exact Or.inr (Prod.mk.inj entered)

def SchedPc.resting : SchedPc → Bool
  | .idle _ => true
  | _ => false

def ShutdownPc.resting : ShutdownPc → Bool
  | .idle _ => true
  | _ => false

/-- The number that a thread is about to add one to when it counts a worker. -/
def SchedPc.counting : SchedPc → Option Nat
  | .adjCas _ v => some v
  | _ => none

/-- The index that a thread in `Threadpool_Shutdown` is about to claim. -/
def ShutdownPc.claiming : ShutdownPc → Option Nat
  | .drainCas rh => some rh
  | _ => none

/-- An orderly step of the workers and of two callers of each function. -/
def FewOrderly (s : ShutPool) (label : ShutLabel) : Prop :=
  (NotWrapping s.pool ∧
    match label with
    | .sched i _ => ∀ v ∈ (s.pool.sched i).counting, v + 1 < 256
    | .worker j ok => s.stages j = .tested → CommittedClaim s.pool (.worker j ok)
    | .shut i => (s.shutters i ≠ .setFlag → (s.pool.sched 0).resting = true ∧ (s.pool.sched 1).resting = true) ∧
        ∀ rh ∈ (s.shutters i).claiming, s.pool.ring.requestHead = rh → rh < s.pool.ring.commitHead
    | _ => True) ∧ label.few = true

instance (s : ShutPool) (label : ShutLabel) : Decidable (FewOrderly s label) :=
  match label with
  | .call _ _ => inferInstanceAs (Decidable ((_ ∧ True) ∧ _))
  | .sched i _ => inferInstanceAs (Decidable ((_ ∧ ∀ v ∈ (s.pool.sched i).counting, v + 1 < 256) ∧ _))
  | .worker j ok =>
    inferInstanceAs (Decidable ((_ ∧ (s.stages j = .tested → CommittedClaim s.pool (.worker j ok))) ∧ _))
  | .shutdown _ => inferInstanceAs (Decidable ((_ ∧ True) ∧ _))
  | .shut i => inferInstanceAs (Decidable ((_ ∧ (s.shutters i ≠ .setFlag →
      (s.pool.sched 0).resting = true ∧ (s.pool.sched 1).resting = true) ∧
        ∀ rh ∈ (s.shutters i).claiming, s.pool.ring.requestHead = rh → rh < s.pool.ring.commitHead) ∧ _))

theorem SchedPc.idle_of_resting {pc : SchedPc} (resting : pc.resting = true) : ∃ res, pc = .idle res := by
  cases pc <;> first | exact ⟨_, rfl⟩ | cases resting

theorem ShutdownPc.idle_of_resting {pc : ShutdownPc} (resting : pc.resting = true) : ∃ res, pc = .idle res := by
  cases pc <;> first | exact ⟨_, rfl⟩ | cases resting

/-- What is so of callers 0 and 1 and of all callers from 2 on is so of every caller. -/
theorem callers_of_two {P : Nat → Prop} (others : ∀ k, 2 ≤ k → P k) (first : P 0) (second : P 1) (k : Nat) : P k := by
  rcases Nat.lt_or_ge k 2 with low | high
  · have either : k = 0 ∨ k = 1 := by omega
    rcases either with rfl | rfl
    · exact first
    · exact second
  · exact others k high

theorem quiet_of_resting (others : ∀ k, 2 ≤ k → s.pool.sched k = .idle none) (first : (s.pool.sched 0).resting = true)
    (second : (s.pool.sched 1).resting = true) : s.Quiet :=
  callers_of_two (fun k high => ⟨none, others k high⟩) (SchedPc.idle_of_resting first) (SchedPc.idle_of_resting second)

theorem returned_of_resting (others : ∀ k, 2 ≤ k → s.shutters k = .idle none) (first : (s.shutters 0).resting = true)
    (second : (s.shutters 1).resting = true) : s.Returned :=
  callers_of_two (fun k high => ⟨none, others k high⟩) (ShutdownPc.idle_of_resting first)
    (ShutdownPc.idle_of_resting second)

theorem orderly_of_few (init : threadpoolInit cfg = some start)
    (reach : Reach (shutStep cfg) (.fresh start) FewOrderly s) : Reach (shutStep cfg) (.fresh start) OrderlyShutdown s := by
  induction reach with
  | start => exact .start
  | @next s t label before met taken ih =>
    refine ih.next ⟨met.1.1, ?_⟩ taken
    cases label with
    | sched i result =>
      intro back v here
      have small : ∀ v ∈ (s.pool.sched i).counting, v + 1 < 256 := met.1.2
      rw [here] at small
      exact small v rfl
    | worker j result => exact met.1.2
    | shut i =>
      obtain ⟨rest, committed⟩ := met.1.2
      refine ⟨fun past => ?_, fun rh here => committed rh (by rw [here]; rfl)⟩
      exact quiet_of_resting (fun k other => (few_idle init before k other).1) (rest past).1 (rest past).2
    | _ => trivial

/-- A given run from a fresh pool, with what is observed of its last state. -/
def shutTrace {α : Type} (cfg : ThreadpoolConfig) (ok : ShutPool → ShutLabel → Prop) [∀ s label, Decidable (ok s label)]
    (labels : List ShutLabel) (view : ShutPool → α) : Option α :=
  (threadpoolInit cfg).bind fun start =>
    (exec (shutStep cfg) (fun s label => decide (ok s label)) (.fresh start) labels).map view

theorem shutTrace_reach {α : Type} {ok : ShutPool → ShutLabel → Prop} [∀ s label, Decidable (ok s label)]
    {labels : List ShutLabel} {view : ShutPool → α} {seen : α} (trace : shutTrace cfg ok labels view = some seen) :
    ∃ start s, threadpoolInit cfg = some start ∧ Reach (shutStep cfg) (.fresh start) ok s ∧ view s = seen := by
  obtain ⟨start, init, rest⟩ := Option.bind_eq_some_iff.mp trace
  obtain ⟨s, reach, seen⟩ := exists_reach_of_exec rest
  exact ⟨start, s, init, reach, seen⟩

/-- Caller 0 schedules a task, which a worker runs, and a second one; the pool is shut down before the worker has read the
notification, so that the second task goes to its cleanup. -/
def orderlyRun : List ShutLabel :=
  ShutLabel.call 0 ⟨10, 30, 20⟩ :: List.replicate 27 (ShutLabel.sched 0 true) ++ List.replicate 25 (ShutLabel.worker 0 true) ++
    ShutLabel.call 0 ⟨11, 31, 21⟩ :: List.replicate 20 (ShutLabel.sched 0 true) ++
    ShutLabel.shutdown 0 :: List.replicate 9 (ShutLabel.shut 0) ++ List.replicate 3 (ShutLabel.worker 0 true) ++
    List.replicate 17 (ShutLabel.shut 0)

theorem shutdown_accounts_for_two : ∃ start s, threadpoolInit ⟨3, 1⟩ = some start ∧
    Reach (shutStep ⟨3, 1⟩) (.fresh start) OrderlyShutdown s ∧ s.Returned ∧ s.halted = true ∧
      s.pool.ring.reserved[1]? = some ⟨11, 31, 21⟩ ∧
      (s.pool.executed.filter (·.1 == 1) = [(1, 11, 21)] ∧ s.cleaned.filter (·.1 == 1) = [] ∨
        s.pool.executed.filter (·.1 == 1) = [] ∧ s.cleaned.filter (·.1 == 1) = [(1, 31, 21)]) := by
  have trace : shutTrace ⟨3, 1⟩ FewOrderly orderlyRun (fun s => ((s.halted && (s.shutters 0).resting &&
      (s.shutters 1).resting), s.pool.ring.reserved[1]?)) = some (true, some ⟨11, 31, 21⟩) := by decide +kernel
  obtain ⟨start, s, init, reach, seen⟩ := shutTrace_reach trace
  simp only [Prod.mk.injEq, Bool.and_eq_true] at seen
  obtain ⟨⟨⟨halted, first⟩, second⟩, scheduled⟩ := seen
  have returned := returned_of_resting (fun k other => (few_idle init reach k other).2) first second
  have orderly := orderly_of_few init reach
  exact ⟨start, s, init, orderly, returned, halted, scheduled,
    shutdown_accounts_for_tasks init orderly returned halted 1 ⟨11, 31, 21⟩ scheduled⟩

/-- Caller 1 is past the test of the flag when caller 0 shuts the pool down for good, and schedules its task afterwards. -/
def lateTask : List ShutLabel :=
  ShutLabel.call 0 ⟨10, 30, 20⟩ :: List.replicate 27 (ShutLabel.sched 0 true) ++ List.replicate 25 (ShutLabel.worker 0 true) ++
    ShutLabel.call 1 ⟨11, 31, 21⟩ :: ShutLabel.shutdown 0 :: List.replicate 15 (ShutLabel.shut 0) ++
    List.replicate 3 (ShutLabel.worker 0 true) ++
    ShutLabel.shutdown 0 :: List.replicate 14 (ShutLabel.shut 0) ++ List.replicate 21 (ShutLabel.sched 1 true)

/-- Caller 0 schedules tasks `first` to `first + n - 1`, each of which the sleeping worker runs. -/
def servedTasks (first : Nat) : Nat → List ShutLabel
  | 0 => []
  | n + 1 => ShutLabel.call 0 ⟨10 + first, 30 + first, 20 + first⟩ :: List.replicate 20 (ShutLabel.sched 0 true) ++
      List.replicate 25 (ShutLabel.worker 0 true) ++ servedTasks (first + 1) n

/-- The fifth task is still there when two callers shut the pool down. Both find it, one claims it, and the other one
claims the next index, whose cell has the second task. -/
def doubleDrain : List ShutLabel :=
  ShutLabel.call 0 ⟨10, 30, 20⟩ :: List.replicate 27 (ShutLabel.sched 0 true) ++ List.replicate 25 (ShutLabel.worker 0 true) ++
    servedTasks 1 3 ++ ShutLabel.call 0 ⟨14, 34, 24⟩ :: List.replicate 20 (ShutLabel.sched 0 true) ++
    ShutLabel.shutdown 0 :: ShutLabel.shutdown 1 :: List.replicate 9 (ShutLabel.shut 0) ++
    List.replicate 3 (ShutLabel.worker 0 true) ++ List.replicate 10 (ShutLabel.shut 1) ++ List.replicate 14 (ShutLabel.shut 0) ++
    List.replicate 14 (ShutLabel.shut 1)

/-- A `Threadpool_Shutdown` has returned true and all calls have returned: in one run a task for which `Threadpool_Schedule`
returned true is neither run nor cleaned up, in another one the cleanup of a task is called that has been run. -/
theorem shutdown_loses_task :
    (∃ start s, threadpoolInit ⟨3, 1⟩ = some start ∧ Reach (shutStep ⟨3, 1⟩) (.fresh start) (fun _ _ => True) s ∧
      s.Quiet ∧ s.Returned ∧ s.halted = true ∧ s.pool.sched 1 = .idle (some (true, 0)) ∧
      s.pool.ring.reserved[1]? = some ⟨11, 31, 21⟩ ∧ s.pool.executed = [(0, 10, 20)] ∧ s.cleaned = []) ∧
    ∃ start s, threadpoolInit ⟨2, 1⟩ = some start ∧ Reach (shutStep ⟨2, 1⟩) (.fresh start) (fun _ _ => True) s ∧
      s.Quiet ∧ s.Returned ∧ s.halted = true ∧ s.pool.ring.reserved[1]? = some ⟨11, 31, 21⟩ ∧
      (1, 11, 21) ∈ s.pool.executed ∧ s.cleaned = [(4, 34, 24), (5, 31, 21)] := by
  have late : shutTrace ⟨3, 1⟩ (fun _ label => True ∧ label.few = true) lateTask (fun s => decide (
      ((s.pool.sched 0).resting = true ∧ (s.pool.sched 1).resting = true) ∧
      ((s.shutters 0).resting = true ∧ (s.shutters 1).resting = true) ∧ s.halted = true ∧
      s.pool.sched 1 = .idle (some (true, 0)) ∧ s.pool.ring.reserved[1]? = some ⟨11, 31, 21⟩ ∧
      s.pool.executed = [(0, 10, 20)] ∧ s.cleaned = [])) = some true := by decide +kernel
  have double : shutTrace ⟨2, 1⟩ (fun _ label => True ∧ label.few = true) doubleDrain (fun s => decide (
      ((s.pool.sched 0).resting = true ∧ (s.pool.sched 1).resting = true) ∧
      ((s.shutters 0).resting = true ∧ (s.shutters 1).resting = true) ∧ s.halted = true ∧
      s.pool.ring.reserved[1]? = some ⟨11, 31, 21⟩ ∧ (1, 11, 21) ∈ s.pool.executed ∧
      s.cleaned = [(4, 34, 24), (5, 31, 21)])) = some true := by decide +kernel
  refine ⟨?_, ?_⟩
  · obtain ⟨start, s, init, reach, seen⟩ := shutTrace_reach late
    obtain ⟨idle, rest, results⟩ := of_decide_eq_true seen
    have others := few_idle init reach
    exact ⟨start, s, init, reach.weaken fun _ _ _ => trivial,
      quiet_of_resting (fun k other => (others k other).1) idle.1 idle.2,
      returned_of_resting (fun k other => (others k other).2) rest.1 rest.2, results⟩
  · obtain ⟨start, s, init, reach, seen⟩ := shutTrace_reach double
    obtain ⟨idle, rest, results⟩ := of_decide_eq_true seen
    have others := few_idle init reach
    exact ⟨start, s, init, reach.weaken fun _ _ _ => trivial,
      quiet_of_resting (fun k other => (others k other).1) idle.1 idle.2,
      returned_of_resting (fun k other => (others k other).2) rest.1 rest.2, results⟩

end Tasks

end Kinetic
