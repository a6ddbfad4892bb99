import Kinetic.Threadpool.LostTasks
import Kinetic.Threadpool.WorkerTable

namespace Kinetic
open Transition Function

/-- Where the caller of `Threadpool_Shutdown(t, true)` stands in the loop that cancels the workers. -/
inductive KillPc
  | idle
  | setFlag
  | test (k : Nat)
  | testStatus (k : Nat)
  | setStatus (k : Nat)
  | cancel (k : Nat)
  deriving DecidableEq

/-- A pool that one thread shuts down, thread 0, with one call after the other. `cancelled` are the workers given to
`pthread_cancel`, and `closes` has the descriptor of every `close` made by `notify_shutdown`, in order. -/
structure ClosingPool where
  base : ShutPool
  kill : KillPc
  cancelled : Nat → Bool
  closes : List Nat

inductive ClosingLabel
  | call (i : Nat) (task : ThreadpoolTask)
  | sched (i : Nat) (ok : Bool)
  | worker (j : Nat) (ok : Bool)
  | shutdown (killAll : Bool)
  | shut
  | unwind (j : Nat)
  deriving DecidableEq

/-- The calls at which a cancelled worker comes to its end: `poll`, `read`, those in a task, and the last `close`. -/
def ShutPool.cancellable (s : ShutPool) (j : Nat) : Bool :=
  match s.stages j, (s.pool.workers j).map Worker.pc with
  | .leaving, some _ => true
  | .running, some .poll => true
  | .running, some .read => true
  | .running, some (.run _ _) => true
  | _, _ => false

/-- The entry whose pipe `notify_shutdown` is about to close. -/
def ShutdownPc.closing : ShutdownPc → Option Nat
  | .close _ k _ => some k
  | _ => none

/-- The entry whose status `notify_shutdown` is about to compare with `STATUS_SHUTDOWN`. -/
def ShutdownPc.testing : ShutdownPc → Option Nat
  | .testShutdown _ k _ => some k
  | _ => none

def ShutPool.parentFd (s : ShutPool) (k : Nat) : Nat := (s.pool.threads k).parentFd

namespace ClosingPool

def fresh (p : Pool) : ClosingPool :=
  { base := .fresh p, kill := .idle, cancelled := fun _ => false, closes := [] }

def setBase (s : ClosingPool) (base : ShutPool) : ClosingPool := { s with base := base }

/-- One access to shared memory in the loop that cancels the workers. `pthread_cancel` fails with
`ESRCH` for a worker that has come to its end, and that failure is tolerated. -/
def killStep (s : ClosingPool) : Option ClosingPool :=
  let base := s.base
  match s.kill with
  | .idle => none
  | .setFlag => some { s with base := { base with shuttingDown := true }, kill := .test 0 }
  | .test k =>
    if k < base.pool.liveThreads then some { s with kill := .testStatus k }
    else some { s with base := base.goto 0 (.notify false 0 0), kill := .idle }
  | .testStatus k => some { s with kill := if base.ended k = .live then .setStatus k else .test (k + 1) }
  | .setStatus k => some { s with base := base.setEnded k .shutdown, kill := .cancel k }
  | .cancel k =>
    match base.handle k with
    | none => some (s.setBase base.fail)
    | some j => some { s with cancelled := Function.update s.cancelled j true, kill := .test (k + 1) }

end ClosingPool

/-- One step of the pool, which a failed assertion stops. -/
def closingStep (cfg : ThreadpoolConfig) (s : ClosingPool) (label : ClosingLabel) : Option ClosingPool :=
  if s.base.pool.failed then none
  else
    match label with
    | .call i task => (shutStep cfg s.base (.call i task)).map s.setBase
    | .sched i ok => (s.base.schedStep cfg i ok).map s.setBase
    | .worker j ok => (s.base.workerStep cfg j ok).map s.setBase
    | .shutdown killAll =>
      match s.kill, s.base.shutters 0 with
      | .idle, .idle _ => some (if killAll then { s with kill := .setFlag } else s.setBase (s.base.goto 0 .setFlag))
      | _, _ => none
    | .shut =>
      if s.kill = .idle then
        (s.base.shutdownStep cfg 0).map fun base =>
          { s with base := base, closes := s.closes ++ ((s.base.shutters 0).closing.map s.base.parentFd).toList }
      else s.killStep
    | .unwind j =>
      if s.cancelled j && s.base.cancellable j then some (s.setBase (s.base.setStage j .exited)) else none

/-- A thread begins to fill an entry only if that is still the first free one and no other thread is filling one, and a
worker whose pipe has been closed has stored `STATUS_SHUTDOWN` when `notify_shutdown` comes to its entry again. -/
def Noticed (s : ClosingPool) : ClosingLabel → Prop
  | .sched i ok => FillsAlone s.base.pool (.sched i ok)
  | .shut => ∀ k ∈ (s.base.shutters 0).testing, s.base.closed (s.base.parentFd k) = true → s.base.ended k = .shutdown
  | _ => True

/-- What a thread in `notify_shutdown` relies on. -/
def SweepFacts (s : ShutPool) : ShutdownPc → Prop
  | .testJoined _ k _ => k < s.pool.liveThreads
  | .testShutdown _ k _ => k < s.pool.liveThreads
  | .close _ k _ => k < s.pool.liveThreads ∧ s.closed (s.parentFd k) = false
  | _ => True

/-- No pipe has been closed twice, and all were those of entries that count. -/
structure ClosingInv (cfg : ThreadpoolConfig) (s : ClosingPool) : Prop where
  bounded : Bounded s.base.pool
  table : TableInv cfg s.base.pool
  sweep : SweepFacts s.base (s.base.shutters 0)
  noted : ∀ fd ∈ s.closes, s.base.closed fd = true
  once : s.closes.Nodup
  owned : ∀ fd ∈ s.closes, ∃ k < s.base.pool.liveThreads, s.base.parentFd k = fd

section Table
variable {cfg : ThreadpoolConfig} {p p' : Pool} {s s' : ShutPool} {i j : Nat} {ok : Bool}

theorem ShutPool.goto_self (t : ShutPool) (pc : ShutdownPc) : (t.goto i pc).shutters i = pc := by
  unfold ShutPool.goto
  exact update_self ..

/-- The table of workers after a step of a thread in `Threadpool_Schedule`. -/
theorem TableInv.shut_sched (inv : TableInv cfg s.pool) (bounded : Bounded s.pool) (small : (setDefaults cfg).maxThreads < 256)
    (alone : FillsAlone s.pool (.sched i ok)) (taken : s.schedStep cfg i ok = some s') :
    Bounded s'.pool ∧ TableInv cfg s'.pool ∧ KeepsEntries s.pool s'.pool := by
  obtain ⟨moved | ⟨back, k, here, moved⟩ | failed, _, _⟩ := ShutPool.schedStep_cases taken
  · exact ⟨bounded.schedStep moved, inv.schedStep bounded small alone moved, inv.schedStep_keeps small alone moved⟩
  · rw [moved]
    exact ⟨bounded, inv.sched_outside (by rw [here]; rfl) rfl rfl rfl rfl rfl inv.pipe trivial, .of_threads rfl rfl⟩
  · rw [failed]
    exact ⟨bounded, inv.fail, .of_threads rfl rfl⟩

theorem TableInv.shut_worker (inv : TableInv cfg s.pool) (bounded : Bounded s.pool)
    (taken : s.workerStep cfg j ok = some s') : Bounded s'.pool ∧ TableInv cfg s'.pool ∧ KeepsEntries s.pool s'.pool := by
  obtain ⟨moved | same | failed | ⟨w, pc, found, started, moved⟩, _, _⟩ := ShutPool.workerStep_cases taken
  · exact ⟨bounded.workerStep moved, inv.workerStep moved, workerStep_keeps moved⟩
  · rw [same]
    exact ⟨bounded, inv, .of_threads rfl rfl⟩
  · rw [failed]
    exact ⟨bounded, inv.fail, .of_threads rfl rfl⟩
  · rw [moved]
    have polled := (inv.polled j w found).resolve_left started
    exact ⟨bounded.setWorker found, inv.worker_move found rfl rfl rfl rfl rfl (fun _ => ⟨rfl, rfl⟩) (fun _ kept => kept)
      (Or.inr polled), .of_threads rfl rfl⟩

theorem TableInv.shut_call {task : ThreadpoolTask} (inv : TableInv cfg s.pool) (bounded : Bounded s.pool)
    (taken : shutStep cfg s (.call i task) = some s') :
    Bounded s'.pool ∧ TableInv cfg s'.pool ∧ KeepsEntries s.pool s'.pool ∧ s'.shutters = s.shutters ∧ s'.closed = s.closed := by
  unfold shutStep at taken
  split at taken
  · cases taken
  · dsimp only at taken
    split at taken
    · rename_i res here
      split at taken
      · cases taken
        exact ⟨bounded, inv, .of_threads rfl rfl, rfl, rfl⟩
      · split at taken <;> cases taken
        · exact ⟨bounded, inv, .of_threads rfl rfl, rfl, rfl⟩
        · exact ⟨bounded, inv.sched_outside (by rw [here]; rfl) rfl rfl rfl rfl rfl inv.pipe trivial, .of_threads rfl rfl,
            rfl, rfl⟩
    · cases taken

theorem TableInv.shut_shutdown (inv : TableInv cfg s.pool) (bounded : Bounded s.pool)
    (taken : s.shutdownStep cfg i = some s') : Bounded s'.pool ∧ TableInv cfg s'.pool := by
  obtain ⟨⟨ring, failed, pool⟩, _⟩ := ShutPool.shutdownStep_frame taken
  rw [pool]
  exact ⟨bounded, inv.live, inv.pipe, inv.alone,
    fun k => (inv.spawn k).frame rfl rfl (fun _ => ⟨rfl, rfl⟩) fun _ kept => kept, inv.entry, inv.placed, inv.polled⟩

end Table

section Closing
variable {cfg : ThreadpoolConfig} {start : Pool} {s s' : ClosingPool} {base : ShutPool} {label : ClosingLabel}

theorem SweepFacts.later {t t' : ShutPool} {pc : ShutdownPc} (facts : SweepFacts t pc) (keeps : KeepsEntries t.pool t'.pool)
    (closed : t'.closed = t.closed) : SweepFacts t' pc := by
  cases pc with
  | testJoined last k done => exact Nat.lt_of_lt_of_le facts keeps.1
  | testShutdown last k done => exact Nat.lt_of_lt_of_le facts keeps.1
  | close last k done =>
    refine ⟨Nat.lt_of_lt_of_le facts.1 keeps.1, ?_⟩
    unfold ShutPool.parentFd
    rw [closed, (keeps.2 k facts.1).2]
    exact facts.2
  | _ => trivial

/-- A step that closes no pipe and leaves the thread in `notify_shutdown` with what it relies on. -/
theorem ClosingInv.keep (inv : ClosingInv cfg s) (bounded : Bounded s'.base.pool) (table : TableInv cfg s'.base.pool)
    (keeps : KeepsEntries s.base.pool s'.base.pool) (closed : s'.base.closed = s.base.closed) (closes : s'.closes = s.closes)
    (sweep : SweepFacts s'.base (s'.base.shutters 0)) : ClosingInv cfg s' := by
  refine ⟨bounded, table, sweep, by rw [closes, closed]; exact inv.noted, closes ▸ inv.once, fun fd member => ?_⟩
  rw [closes] at member
  obtain ⟨k, below, own⟩ := inv.owned fd member
  exact ⟨k, Nat.lt_of_lt_of_le below keeps.1, ((keeps.2 k below).2).trans own⟩

theorem ClosingInv.move (inv : ClosingInv cfg s) (bounded : Bounded base.pool) (table : TableInv cfg base.pool)
    (keeps : KeepsEntries s.base.pool base.pool) (closed : base.closed = s.base.closed)
    (shutters : base.shutters = s.base.shutters) : ClosingInv cfg (s.setBase base) := by
  refine inv.keep bounded table keeps closed rfl ?_
  change SweepFacts base (base.shutters 0)
  rw [shutters]
  exact inv.sweep.later keeps closed

theorem ClosingInv.killStep (inv : ClosingInv cfg s) (taken : s.killStep = some s') : ClosingInv cfg s' := by
  have still (t : ClosingPool) (pool : t.base.pool = s.base.pool) (closed : t.base.closed = s.base.closed)
      (closes : t.closes = s.closes) (sweep : SweepFacts t.base (t.base.shutters 0)) : ClosingInv cfg t :=
    inv.keep (pool ▸ inv.bounded) (pool ▸ inv.table) (by rw [pool]; exact .of_threads rfl rfl) closed closes sweep
  unfold ClosingPool.killStep at taken
  dsimp only at taken
  split at taken
  · cases taken
  · cases taken
    exact still _ rfl rfl rfl inv.sweep
  · split at taken <;> cases taken
    · exact still _ rfl rfl rfl inv.sweep
    · exact still _ rfl rfl rfl (by rw [ShutPool.goto_self]; trivial)
  · cases taken
    exact still _ rfl rfl rfl inv.sweep
  · cases taken
    exact still _ rfl rfl rfl inv.sweep
  · split at taken <;> cases taken
    · exact inv.move inv.bounded inv.table.fail (.of_threads rfl rfl) rfl rfl
    · exact still _ rfl rfl rfl inv.sweep

/-- The pipe of an entry that counts is closed for the first time. -/
theorem ClosingInv.close (inv : ClosingInv cfg s) {last : Bool} {k done : Nat} {t : ShutPool}
    (here : s.base.shutters 0 = .close last k done)
    (after : t = { s.base with closed := update s.base.closed (s.base.parentFd k) true }.goto 0 (.notify last (k + 1) done)) :
    ClosingInv cfg { s with base := t, closes := s.closes ++ [s.base.parentFd k] } := by
  have facts := inv.sweep
  rw [here] at facts
  obtain ⟨below, unclosed⟩ := facts
  subst t
  have fresh : s.base.parentFd k ∉ s.closes := by
    intro member
    rw [inv.noted _ member] at unclosed
    cases unclosed
  refine ⟨inv.bounded, inv.table, ?_, fun fd member => ?_, ?_, fun fd member => ?_⟩
  · rw [ShutPool.goto_self]
    trivial
  · change update s.base.closed (s.base.parentFd k) true fd = true
    by_cases same : fd = s.base.parentFd k
    · rw [same, update_self]
    · rw [update_of_ne same]
      rcases List.mem_append.mp member with old | new
      · exact inv.noted fd old
      · exact absurd (List.mem_singleton.mp new) same
  · rw [List.nodup_append]
    refine ⟨inv.once, List.nodup_singleton _, fun fd member other new => ?_⟩
    rintro rfl
    rw [List.mem_singleton.mp new] at member
    exact fresh member
  · rcases List.mem_append.mp member with old | new
    · exact inv.owned fd old
    · exact ⟨k, below, (List.mem_singleton.mp new).symm⟩

theorem ClosingInv.shutdownStep (inv : ClosingInv cfg s) (noticed : Noticed s .shut)
    (taken : s.base.shutdownStep cfg 0 = some base) :
    ClosingInv cfg { s with base := base, closes := s.closes ++ ((s.base.shutters 0).closing.map s.base.parentFd).toList } := by
  obtain ⟨bounded, table⟩ := inv.table.shut_shutdown inv.bounded taken
  have facts := inv.sweep
  -- All but `close` leave the pipes alone, so that only the facts of the next access are to be shown.
  have still (other : (s.base.shutters 0).closing = none) (closed : base.closed = s.base.closed)
      (sweep : SweepFacts base (base.shutters 0)) : ClosingInv cfg
        { s with base := base, closes := s.closes ++ ((s.base.shutters 0).closing.map s.base.parentFd).toList } := by
    rw [other]
    obtain ⟨⟨ring, failed, pool⟩, _⟩ := ShutPool.shutdownStep_frame taken
    exact inv.keep bounded table (by rw [pool]; exact .of_threads rfl rfl) closed (List.append_nil _) sweep
  cases pc : s.base.shutters 0 <;> simp only [ShutPool.shutdownStep, pc] at taken <;> rw [pc] at facts still
  case idle res => cases taken
  case close last k done =>
    cases taken
    exact inv.close pc rfl
  case notify last k done =>
    cases taken
    refine still rfl rfl ?_
    rw [ShutPool.goto_self]
    split
    · assumption
    · trivial
  case testJoined last k done =>
    cases taken
    refine still rfl rfl ?_
    rw [ShutPool.goto_self]
    split
    · trivial
    · exact facts
  case testShutdown last k done =>
    cases taken
    refine still rfl rfl ?_
    rw [ShutPool.goto_self]
    split
    · trivial
    · rename_i unfinished
      refine ⟨facts, ?_⟩
      change s.base.closed (s.base.parentFd k) = false
      by_contra closed
      exact unfinished (noticed k (by rw [pc]; rfl) (by simpa using closed))
  case join last k done =>
    split at taken
    · cases taken
      exact still rfl rfl (by change SweepFacts _ (s.base.shutters 0); rw [pc]; trivial)
    · split at taken
      · cases taken
      · split at taken <;> cases taken <;> exact still rfl rfl (by rw [ShutPool.goto_self]; trivial)
  case drainRequest ch =>
    cases taken
    refine still rfl rfl ?_
    rw [ShutPool.goto_self]
    split <;> trivial
  case testCleanup rh =>
    cases taken
    refine still rfl rfl ?_
    rw [ShutPool.goto_self]
    split <;> trivial
  all_goals first
    | (cases taken; exact still rfl rfl (by rw [ShutPool.goto_self]; trivial))
    | (split at taken <;> cases taken <;> exact still rfl rfl (by rw [ShutPool.goto_self]; trivial))

theorem ClosingInv.step (inv : ClosingInv cfg s) (byte : cfg.maxThreads < 256) (noticed : Noticed s label)
    (taken : closingStep cfg s label = some s') : ClosingInv cfg s' := by
  unfold closingStep at taken
  split at taken
  · cases taken
  · cases label with
    | call i task =>
      obtain ⟨base, moved, rfl⟩ := Option.map_eq_some_iff.mp taken
      obtain ⟨bounded, table, keeps, shutters, closed⟩ := inv.table.shut_call inv.bounded moved
      exact inv.move bounded table keeps closed shutters
    | sched i ok =>
      obtain ⟨base, moved, rfl⟩ := Option.map_eq_some_iff.mp taken
      obtain ⟨bounded, table, keeps⟩ := inv.table.shut_sched inv.bounded (maxThreads_small byte) noticed moved
      obtain ⟨_, shutters, closed⟩ := ShutPool.schedStep_cases moved
      exact inv.move bounded table keeps closed shutters
    | worker j ok =>
      obtain ⟨base, moved, rfl⟩ := Option.map_eq_some_iff.mp taken
      obtain ⟨bounded, table, keeps⟩ := inv.table.shut_worker inv.bounded moved
      obtain ⟨_, shutters, closed⟩ := ShutPool.workerStep_cases moved
      exact inv.move bounded table keeps closed shutters
    | shutdown killAll =>
      dsimp only at taken
      split at taken
      · cases taken
        split
        · exact inv.keep inv.bounded inv.table (.of_threads rfl rfl) rfl rfl inv.sweep
        · refine inv.keep inv.bounded inv.table (.of_threads rfl rfl) rfl rfl ?_
          rw [show (s.setBase (s.base.goto 0 .setFlag)).base.shutters 0 = _ from ShutPool.goto_self ..]
          trivial
      · cases taken
    | shut =>
      dsimp only at taken
      split at taken
      · obtain ⟨base, moved, rfl⟩ := Option.map_eq_some_iff.mp taken
        exact inv.shutdownStep noticed moved
      · exact inv.killStep taken
    | unwind j =>
      dsimp only at taken
      split at taken <;> cases taken
      exact inv.move inv.bounded inv.table (.of_threads rfl rfl) rfl rfl

theorem ClosingInv.initial (init : threadpoolInit cfg = some start) : ClosingInv cfg (.fresh start) :=
  ⟨.initial init, .initial init, trivial, by rintro fd ⟨⟩, List.nodup_nil, by rintro fd ⟨⟩⟩

/-- In every state of a run in which entries are filled one at a time and every sweep that comes to an entry again finds
that its worker has noticed the hangup, no descriptor has been closed twice, and each was that of the one worker of an entry. -/
theorem shutdown_closes_once (byte : cfg.maxThreads < 256) (init : threadpoolInit cfg = some start)
    (reach : Reach (closingStep cfg) (.fresh start) Noticed s) :
    s.closes.Nodup ∧ ∀ fd ∈ s.closes, ∃ k < s.base.pool.liveThreads, (∃! j, s.base.pool.slotOf j = some k) ∧
      (s.base.pool.threads k).parentFd = fd ∧ (s.base.pool.threads k).childFd = fd ∧ fd ≠ 0 := by
  have inv : ClosingInv cfg s := reach.invariant (.initial init) fun _ _ _ inv noticed taken => inv.step byte noticed taken
  refine ⟨inv.once, fun fd member => ?_⟩
  obtain ⟨k, below, own⟩ := inv.owned fd member
  obtain ⟨manned, ⟨wired, opened⟩, _⟩ := inv.table.entry k below
  exact ⟨k, below, manned, own, wired.trans own, (wired.trans own) ▸ opened⟩

/-- Steps of the workers, of the caller of `Threadpool_Shutdown` and of one caller of `Threadpool_Schedule`. -/
def ClosingLabel.sole : ClosingLabel → Bool
  | .call i _ => i == 0
  | .sched i _ => i == 0
  | _ => true

/-- The entry that a thread is about to fill. -/
def SoleCaller (s : ClosingPool) (label : ClosingLabel) : Prop :=
  label.sole = true ∧ (∀ id ∈ (s.base.pool.sched 0).chosen, id = s.base.pool.liveThreads) ∧
    ∀ k ∈ (s.base.shutters 0).testing, s.base.closed (s.base.parentFd k) = true → s.base.ended k = .shutdown

instance instDecidableSoleCaller (s : ClosingPool) (label : ClosingLabel) : Decidable (SoleCaller s label) :=
  inferInstanceAs (Decidable (_ ∧ _ ∧ _))

theorem killStep_sched (taken : s.killStep = some s') : s'.base.pool.sched = s.base.pool.sched := by
  unfold ClosingPool.killStep at taken
  dsimp only at taken
  split at taken
  · cases taken
  all_goals first
    | (cases taken; rfl)
    | (split at taken <;> cases taken <;> rfl)

theorem closingStep_sole {k : Nat} (taken : closingStep cfg s label = some s') (sole : label.sole = true) (other : k ≠ 0) :
    s'.base.pool.sched k = s.base.pool.sched k := by
  unfold closingStep at taken
  split at taken
  · cases taken
  · cases label with
    | call i task =>
      obtain ⟨base, moved, rfl⟩ := Option.map_eq_some_iff.mp taken
      have zero : i = 0 := by simpa [ClosingLabel.sole] using sole
      subst i
      unfold shutStep at moved
      split at moved
      · cases moved
      · dsimp only at moved
        split at moved
        · split at moved
          · cases moved
            rfl
          · split at moved <;> cases moved
            · rfl
            · exact update_of_ne other _ _
        · cases moved
    | sched i ok =>
      obtain ⟨base, moved, rfl⟩ := Option.map_eq_some_iff.mp taken
      have zero : i = 0 := by simpa [ClosingLabel.sole] using sole
      exact (ShutPool.schedStep_other moved (zero ▸ other)).1
    | worker j ok =>
      obtain ⟨base, moved, rfl⟩ := Option.map_eq_some_iff.mp taken
      exact congrFun (ShutPool.workerStep_threads moved).1 k
    | shutdown killAll =>
      dsimp only at taken
      split at taken
      · cases taken
        split <;> rfl
      · cases taken
    | shut =>
      dsimp only at taken
      split at taken
      · obtain ⟨base, moved, rfl⟩ := Option.map_eq_some_iff.mp taken
        exact congrFun (ShutPool.shutdownStep_other moved other).1 k
      · exact congrFun (killStep_sched taken) k
    | unwind j =>
      dsimp only at taken
      split at taken <;> cases taken
      rfl

theorem noticed_of_sole (init : threadpoolInit cfg = some start) (reach : Reach (closingStep cfg) (.fresh start) SoleCaller s) :
    Reach (closingStep cfg) (.fresh start) Noticed s := by
  have both : (∀ k, k ≠ 0 → s.base.pool.sched k = .idle none) ∧ Reach (closingStep cfg) (.fresh start) Noticed s := by
    induction reach with
    | start => exact ⟨fun k _ => (threadpoolInit_blank init).2.1 k, .start⟩
    | @next s s' label _ met taken ih =>
      obtain ⟨idle, reach⟩ := ih
      obtain ⟨sole, chosen, noticed⟩ := met
      refine ⟨fun k other => (closingStep_sole taken sole other).trans (idle k other), reach.next ?_ taken⟩
      cases label with
      | sched i ok =>
        intro back id fd here
        have zero : i = 0 := by simpa [ClosingLabel.sole] using sole
        subst i
        exact ⟨chosen id (by rw [here]; rfl), fun k other => by rw [idle k other]; rfl⟩
      | shut => exact noticed
      | _ => trivial
  exact both.2

/-- A given run from a fresh pool, with what is observed of its last state. -/
def closingTrace {α : Type} (cfg : ThreadpoolConfig) (ok : ClosingPool → ClosingLabel → Prop)
    [∀ s label, Decidable (ok s label)] (labels : List ClosingLabel) (view : ClosingPool → α) : Option α :=
  (threadpoolInit cfg).bind fun start =>
    (exec (closingStep cfg) (fun s label => decide (ok s label)) (.fresh start) labels).map view

theorem closingTrace_reach {α : Type} {ok : ClosingPool → ClosingLabel → Prop} [∀ s label, Decidable (ok s label)]
    {labels : List ClosingLabel} {view : ClosingPool → α} {seen : α} (trace : closingTrace cfg ok labels view = some seen) :
    ∃ start s, threadpoolInit cfg = some start ∧ Reach (closingStep cfg) (.fresh start) ok s ∧ view s = seen := by
  obtain ⟨start, init, rest⟩ := Option.bind_eq_some_iff.mp trace
  obtain ⟨s, reach, seen⟩ := exists_reach_of_exec rest
  exact ⟨start, s, init, reach, seen⟩

/-- Caller 0 schedules a task, which a worker runs, and the worker sleeps. -/
def sleepingWorker : List ClosingLabel :=
  ClosingLabel.call 0 ⟨10, 30, 20⟩ :: List.replicate 27 (ClosingLabel.sched 0 true) ++ List.replicate 25 (ClosingLabel.worker 0 true)

/-- Two workers have run a task each and sleep. Both notice the hangup before the second sweep; a second call, by force, finds
them joined. -/
def promptHangup : List ClosingLabel :=
  ClosingLabel.call 0 ⟨10, 30, 20⟩ :: List.replicate 27 (ClosingLabel.sched 0 true) ++
    ClosingLabel.call 0 ⟨11, 31, 21⟩ :: List.replicate 29 (ClosingLabel.sched 0 true) ++
    List.replicate 25 (ClosingLabel.worker 0 true) ++ List.replicate 25 (ClosingLabel.worker 1 true) ++
    List.replicate 6 (ClosingLabel.worker 0 true) ++ ClosingLabel.shutdown false :: List.replicate 9 ClosingLabel.shut ++
    List.replicate 3 (ClosingLabel.worker 0 true) ++ List.replicate 3 (ClosingLabel.worker 1 true) ++
    List.replicate 16 ClosingLabel.shut ++ ClosingLabel.shutdown true :: List.replicate 20 ClosingLabel.shut

theorem shutdown_closes_once_prompt : ∃ start s, threadpoolInit ⟨3, 2⟩ = some start ∧
    Reach (closingStep ⟨3, 2⟩) (.fresh start) Noticed s ∧ s.base.shutters 0 = .idle (some true) ∧ s.closes = [1, 2] ∧
      s.closes.Nodup ∧ (∃ k < s.base.pool.liveThreads, (s.base.pool.threads k).parentFd = 1) ∧
        ∃ k < s.base.pool.liveThreads, (s.base.pool.threads k).parentFd = 2 := by
  have trace : closingTrace ⟨3, 2⟩ SoleCaller promptHangup (fun s => (s.base.shutters 0, s.closes)) =
      some (.idle (some true), [1, 2]) := by decide +kernel
  obtain ⟨start, s, init, sole, seen⟩ := closingTrace_reach trace
  obtain ⟨returned, closes⟩ := Prod.mk.inj seen
  have reach := noticed_of_sole init sole
  obtain ⟨once, owned⟩ := shutdown_closes_once (by decide) init reach
  obtain ⟨k, below, _, own, _⟩ := owned 1 (by rw [closes]; decide)
  obtain ⟨k', below', _, own', _⟩ := owned 2 (by rw [closes]; decide)
  exact ⟨start, s, init, reach, returned, closes, once, ⟨k, below, own⟩, k', below', own'⟩

/-- Both sweeps of one call find the worker as it was. -/
def slowHangup : List ClosingLabel := sleepingWorker ++ ClosingLabel.shutdown false :: List.replicate 15 ClosingLabel.shut

/-- Callers 0 and 1 both fill the first entry and count a worker each. -/
def unfilledEntry : List ClosingLabel :=
  ClosingLabel.call 0 ⟨10, 0, 20⟩ :: List.replicate 20 (ClosingLabel.sched 0 true) ++
    ClosingLabel.call 1 ⟨11, 0, 21⟩ :: List.replicate 20 (ClosingLabel.sched 1 true) ++
    List.replicate 7 (ClosingLabel.sched 0 true) ++ List.replicate 7 (ClosingLabel.sched 1 true) ++
    ClosingLabel.shutdown false :: List.replicate 9 ClosingLabel.shut

/-- One call closes the pipe of its one worker twice. Where the second entry that counts was never filled, a
call closes descriptor 0, which is in that entry and is no pipe. -/
theorem shutdown_closes_twice :
    (∃ start s, threadpoolInit ⟨3, 1⟩ = some start ∧ Reach (closingStep ⟨3, 1⟩) (.fresh start) (fun _ _ => True) s ∧
      s.base.pool.liveThreads = 1 ∧ (s.base.pool.threads 0).parentFd = 1 ∧ s.closes = [1, 1]) ∧
    ∃ start s, threadpoolInit ⟨3, 4⟩ = some start ∧ Reach (closingStep ⟨3, 4⟩) (.fresh start) (fun _ _ => True) s ∧
      s.base.pool.created = 2 ∧ s.base.pool.slotOf 0 = some 0 ∧ s.base.pool.slotOf 1 = some 0 ∧
      (s.base.pool.threads 0).parentFd = 2 ∧ s.closes = [2, 0] := by
  have slow : closingTrace ⟨3, 1⟩ (fun _ _ => True) slowHangup (fun s => decide (s.base.pool.liveThreads = 1 ∧
      (s.base.pool.threads 0).parentFd = 1 ∧ s.closes = [1, 1])) = some true := by decide +kernel
  have unfilled : closingTrace ⟨3, 4⟩ (fun _ _ => True) unfilledEntry (fun s => decide (s.base.pool.created = 2 ∧
      s.base.pool.slotOf 0 = some 0 ∧ s.base.pool.slotOf 1 = some 0 ∧ (s.base.pool.threads 0).parentFd = 2 ∧
      s.closes = [2, 0])) = some true := by decide +kernel
  refine ⟨?_, ?_⟩
  · obtain ⟨start, s, init, reach, seen⟩ := closingTrace_reach slow
    exact ⟨start, s, init, reach, of_decide_eq_true seen⟩
  · obtain ⟨start, s, init, reach, seen⟩ := closingTrace_reach unfilled
    exact ⟨start, s, init, reach, of_decide_eq_true seen⟩

end Closing

end Kinetic
