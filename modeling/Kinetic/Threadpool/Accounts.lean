import Kinetic.Lib.Ledger
import Kinetic.Threadpool.Progress
import Kinetic.Threadpool.Shutdown

namespace Kinetic
open Function

/-- Who claims indices: the workers, and the threads in `Threadpool_Shutdown`. -/
inductive Claimant
  | worker (j : Nat)
  | shutter (i : Nat)
  deriving DecidableEq

/-- What has to be done for the task of index `r` by the one who claims it: run
it, or call its cleanup when it has one. The cleanups are the second list. -/
def Claimant.due (r : Nat) (task : ThreadpoolTask) : Claimant → List (Nat × Nat × Nat) × List (Nat × Nat × Nat)
  | .worker _ => ([(r, task.task, task.udata)], [])
  | .shutter _ => ([], if task.cleanup = 0 then [] else [(r, task.cleanup, task.udata)])

/-- The index that a thread in `Threadpool_Shutdown` has claimed and whose cleanup it has still to call. -/
def ShutdownPc.holding : ShutdownPc → Option Nat
  | .testCleanup rh => some rh
  | .loadCleanup rh => some rh
  | .callCleanup rh _ => some rh
  | _ => none

namespace ShutPool

def claimed (s : ShutPool) (r : Nat) : Claimant → Prop
  | .worker j => (r, j) ∈ s.pool.claims
  | .shutter i => (r, i) ∈ s.drains

def holds (s : ShutPool) : Claimant → Option Nat
  | .worker j => (s.pool.workers j).bind fun w => w.pc.holding
  | .shutter i => (s.shutters i).holding

/-- What has been run and cleaned up for index `r`. -/
def log (s : ShutPool) (r : Nat) : List (Nat × Nat × Nat) × List (Nat × Nat × Nat) :=
  (s.pool.executed.filter (·.1 == r), s.cleaned.filter (·.1 == r))

def due (s : ShutPool) (c : Claimant) (r : Nat) : List (Nat × Nat × Nat) × List (Nat × Nat × Nat) :=
  s.pool.ring.reserved[r]?.elim ([], []) fun task => c.due r task

end ShutPool

/-- The indices below `task_request_head` are the claimed ones, each claimed once,
and for each what is due has been done or its claimant is still at it. -/
structure Accounts (s : ShutPool) : Prop where
  ledger : Ledger.Balanced s.claimed s.holds s.log ([], []) s.due
  claims : ∀ r, (∃ c, s.claimed r c) ↔ r < s.pool.ring.requestHead

section Accounts
variable {cfg : ThreadpoolConfig} {s s' : ShutPool} {i j : Nat} {w v : Worker} {pc : ShutdownPc}

theorem ShutPool.holds_of_found (found : s.pool.workers j = some w) : s.holds (.worker j) = w.pc.holding := by
  change (s.pool.workers j).bind (fun w => w.pc.holding) = w.pc.holding
  rw [found]
  rfl

theorem ShutPool.holds_worker (workers : s'.pool.workers = update s.pool.workers j (some v))
    (shutters : s'.shutters = s.shutters) : s'.holds = update s.holds (.worker j) v.pc.holding := by
  funext c
  cases c with
  | worker k =>
    by_cases same : k = j
    · subst k
      rw [update_self]
      exact ShutPool.holds_of_found (by rw [workers, update_self])
    · rw [update_of_ne (by simpa using same)]
      have kept : s'.pool.workers k = s.pool.workers k := by rw [workers, update_of_ne same]
      exact congrArg (Option.bind · fun w => w.pc.holding) kept
  | shutter k =>
    rw [update_of_ne (by simp)]
    exact congrArg ShutdownPc.holding (congrFun shutters k)

theorem ShutPool.holds_shutter (workers : s'.pool.workers = s.pool.workers) (shutters : s'.shutters = update s.shutters i pc) :
    s'.holds = update s.holds (.shutter i) pc.holding := by
  funext c
  cases c with
  | worker k =>
    rw [update_of_ne (by simp)]
    exact congrArg (Option.bind · fun w => w.pc.holding) (congrFun workers k)
  | shutter k =>
    by_cases same : k = i
    · subst k
      rw [update_self]
      exact congrArg ShutdownPc.holding (by rw [shutters, update_self])
    · rw [update_of_ne (by simpa using same)]
      exact congrArg ShutdownPc.holding (by rw [shutters, update_of_ne same])

theorem ShutPool.holds_worker_same (found : s.pool.workers j = some w)
    (workers : s'.pool.workers = update s.pool.workers j (some v)) (shutters : s'.shutters = s.shutters)
    (same : v.pc.holding = w.pc.holding) : s'.holds = s.holds := by
  rw [ShutPool.holds_worker workers shutters, same, ← ShutPool.holds_of_found found, update_eq_self]

theorem ShutPool.holds_shutter_same (workers : s'.pool.workers = s.pool.workers) (shutters : s'.shutters = update s.shutters i pc)
    (same : pc.holding = (s.shutters i).holding) : s'.holds = s.holds := by
  rw [ShutPool.holds_shutter workers shutters, same]
  exact update_eq_self (Claimant.shutter i) s.holds

theorem Accounts.fresh (accounts : Accounts s) (c : Claimant) : ¬ s.claimed s.pool.ring.requestHead c := fun own =>
  Nat.lt_irrefl _ ((accounts.claims _).mp ⟨c, own⟩)

/-- Nothing is claimed, run or cleaned up, and nobody lets go of an index. -/
theorem Accounts.keep (accounts : Accounts s) (claims : s'.pool.claims = s.pool.claims) (drains : s'.drains = s.drains)
    (executed : s'.pool.executed = s.pool.executed) (cleaned : s'.cleaned = s.cleaned) (holds : s'.holds = s.holds)
    (request : s'.pool.ring.requestHead = s.pool.ring.requestHead)
    (reserved : ∀ r, r < s.pool.ring.requestHead → s'.pool.ring.reserved[r]? = s.pool.ring.reserved[r]?) : Accounts s' := by
  have same (r : Nat) (c : Claimant) : s'.claimed r c ↔ s.claimed r c := by
    cases c with
    | worker j => exact Iff.of_eq (congrArg ((r, j) ∈ ·) claims)
    | shutter i => exact Iff.of_eq (congrArg ((r, i) ∈ ·) drains)
  refine ⟨accounts.ledger.keep same holds ?_ fun r c own => ?_, fun r => ?_⟩
  · unfold ShutPool.log
    rw [executed, cleaned]
  · unfold ShutPool.due
    rw [reserved r ((accounts.claims r).mp ⟨c, own⟩)]
  · rw [request, ← accounts.claims r]
    exact exists_congr fun c => same r c

theorem filter_snoc_other {log : List (Nat × Nat × Nat)} {entry : Nat × Nat × Nat} {q : Nat} (apart : q ≠ entry.1) :
    (log ++ [entry]).filter (·.1 == q) = log.filter (·.1 == q) := by
  have absent : (entry.1 == q) = false := by simpa using Ne.symm apart
  simp [List.filter_append, absent]

theorem filter_snoc_own (log : List (Nat × Nat × Nat)) (entry : Nat × Nat × Nat) :
    (log ++ [entry]).filter (·.1 == entry.1) = log.filter (·.1 == entry.1) ++ [entry] := by
  simp [List.filter_append]

/-- A claimant that holds nothing claims the next index. -/
theorem Accounts.claim (accounts : Accounts s) {c : Claimant} (free : s.holds c = none)
    (claims : ∀ q d, s'.claimed q d ↔ s.claimed q d ∨ q = s.pool.ring.requestHead ∧ d = c)
    (holds : s'.holds = update s.holds c (some s.pool.ring.requestHead)) (executed : s'.pool.executed = s.pool.executed)
    (cleaned : s'.cleaned = s.cleaned) (request : s'.pool.ring.requestHead = s.pool.ring.requestHead + 1)
    (reserved : s'.pool.ring.reserved = s.pool.ring.reserved) : Accounts s' := by
  have dues : s'.due = s.due := by
    unfold ShutPool.due
    rw [reserved]
  have logs : s'.log = s.log := by
    unfold ShutPool.log
    rw [executed, cleaned]
  refine ⟨?_, fun r => ?_⟩
  · rw [dues]
    exact accounts.ledger.claim free accounts.fresh claims holds logs
  · have before := accounts.claims r
    rw [request]
    constructor
    · rintro ⟨d, own⟩
      rcases (claims r d).mp own with old | ⟨here, _⟩
      · have below := before.mp ⟨d, old⟩
        omega
      · omega
    · intro below
      by_cases last : r = s.pool.ring.requestHead
      · exact ⟨c, (claims r c).mpr (Or.inr ⟨last, rfl⟩)⟩
      · obtain ⟨d, own⟩ := before.mpr (by omega)
        exact ⟨d, (claims r d).mpr (Or.inl own)⟩

/-- A claimant does what is due for the index it holds. -/
theorem Accounts.enter (accounts : Accounts s) {c : Claimant} {r : Nat} (held : s.holds c = some r)
    (holds : s'.holds = update s.holds c none) (claims : s'.pool.claims = s.pool.claims) (drains : s'.drains = s.drains)
    (request : s'.pool.ring.requestHead = s.pool.ring.requestHead)
    (reserved : s'.pool.ring.reserved = s.pool.ring.reserved) (entry : s'.log r = s.due c r)
    (others : ∀ q, q ≠ r → s'.log q = s.log q) : Accounts s' := by
  have same (r : Nat) (c : Claimant) : s'.claimed r c ↔ s.claimed r c := by
    cases c with
    | worker j => exact Iff.of_eq (congrArg ((r, j) ∈ ·) claims)
    | shutter i => exact Iff.of_eq (congrArg ((r, i) ∈ ·) drains)
  have dues : s'.due = s.due := by
    unfold ShutPool.due
    rw [reserved]
  refine ⟨?_, fun q => ?_⟩
  · rw [dues]
    exact accounts.ledger.enter held same holds entry others
  · rw [request, ← accounts.claims q]
    exact exists_congr fun c => same q c

/-- The accounts balance after every step of a worker that has copied the right task. -/
theorem Accounts.worker {low : Nat} {p' : Pool} (accounts : Accounts s) (found : s.pool.workers j = some w)
    (facts : CopyFacts cfg low s.pool.ring w.pc) (move : WorkerMove cfg s.pool j w p') (pool : s'.pool = p')
    (shutters : s'.shutters = s.shutters) (drains : s'.drains = s.drains) (cleaned : s'.cleaned = s.cleaned) : Accounts s' := by
  have before := ShutPool.holds_of_found found
  have still (v : Worker) (workers : s'.pool.workers = update s.pool.workers j (some v)) (same : v.pc.holding = w.pc.holding)
      (claims : s'.pool.claims = s.pool.claims) (executed : s'.pool.executed = s.pool.executed)
      (request : s'.pool.ring.requestHead = s.pool.ring.requestHead)
      (reserved : s'.pool.ring.reserved = s.pool.ring.reserved) : Accounts s' :=
    accounts.keep claims drains executed cleaned (ShutPool.holds_worker_same found workers shutters same) request
      fun _ _ => by rw [reserved]
  cases move with
  | fail =>
    have stayed : s'.pool.workers = update s.pool.workers j (some w) := by
      rw [← found, update_eq_self, pool]
      rfl
    exact still w stayed rfl (by rw [pool]; rfl) (by rw [pool]; rfl) (by rw [pool]; rfl) (by rw [pool]; rfl)
  | silent threads pipes v _ same _ =>
    exact still v (by rw [pool]; rfl) same (by rw [pool]; rfl) (by rw [pool]; rfl) (by rw [pool]; rfl) (by rw [pool]; rfl)
  | claim here =>
    have workers : s'.pool.workers =
        update s.pool.workers j (some { w with pc := .assertMark s.pool.ring.requestHead }) := by rw [pool]; rfl
    have holds := ShutPool.holds_worker workers shutters
    refine accounts.claim (c := .worker j) (by rw [before, here]; rfl) (fun q d => ?_) holds (by rw [pool]; rfl) cleaned
      (by rw [pool]; rfl) (by rw [pool]; rfl)
    have claims : s'.pool.claims = s.pool.claims ++ [(s.pool.ring.requestHead, j)] := by rw [pool]; rfl
    cases d with
    | worker k => simp [ShutPool.claimed, claims]
    | shutter k => simp [ShutPool.claimed, drains]
  | mark rh task here =>
    exact still _ (by rw [pool]; rfl) (by rw [here]; rfl) (by rw [pool]; rfl) (by rw [pool]; rfl) (by rw [pool]; rfl)
      (by rw [pool]; rfl)
  | release rh task here =>
    exact still _ (by rw [pool]; rfl) (by rw [here]; rfl) (by rw [pool]; rfl) (by rw [pool]; rfl) (by rw [pool]; rfl)
      (by rw [pool]; rfl)
  | run rh task here =>
    rw [here] at facts before
    have workers : s'.pool.workers = update s.pool.workers j (some { w with pc := .testRequest }) := by rw [pool]; rfl
    have holds := ShutPool.holds_worker workers shutters
    have executed : s'.pool.executed = s.pool.executed ++ [(rh, task.task, task.udata)] := by rw [pool]; rfl
    refine accounts.enter before holds (by rw [pool]; rfl) drains (by rw [pool]; rfl) (by rw [pool]; rfl) ?_ fun q apart => ?_
    · have blank : s.pool.executed.filter (·.1 == rh) = [] ∧ s.cleaned.filter (·.1 == rh) = [] :=
        Prod.mk.inj (accounts.ledger.held rh _ before).2
      have stored : s.pool.ring.reserved[rh]? = some task := facts
      have own := filter_snoc_own s.pool.executed (rh, task.task, task.udata)
      dsimp only at own
      unfold ShutPool.log ShutPool.due
      rw [executed, cleaned, own, blank.1, blank.2, stored]
      rfl
    · unfold ShutPool.log
      rw [executed, cleaned, filter_snoc_other (show q ≠ (rh, task.task, task.udata).1 from apart)]

/-- A thread in `Threadpool_Shutdown` takes a step that has nothing to do with an index. -/
theorem Accounts.shutter (accounts : Accounts s) (pc : ShutdownPc) (same : pc.holding = (s.shutters i).holding) {s' : ShutPool}
    (shutters : s'.shutters = update s.shutters i pc) (workers : s'.pool.workers = s.pool.workers)
    (claims : s'.pool.claims = s.pool.claims) (drains : s'.drains = s.drains) (executed : s'.pool.executed = s.pool.executed)
    (cleaned : s'.cleaned = s.cleaned) (request : s'.pool.ring.requestHead = s.pool.ring.requestHead)
    (reserved : s'.pool.ring.reserved = s.pool.ring.reserved) : Accounts s' :=
  accounts.keep claims drains executed cleaned (ShutPool.holds_shutter_same workers shutters same) request
    fun _ _ => by rw [reserved]

theorem Accounts.goto (accounts : Accounts s) (same : pc.holding = (s.shutters i).holding) : Accounts (s.goto i pc) :=
  accounts.shutter pc same rfl rfl rfl rfl rfl rfl rfl rfl

theorem Accounts.drain (accounts : Accounts s) (free : (s.shutters i).holding = none) :
    Accounts ({ s with
        pool := { s.pool with ring := { s.pool.ring with requestHead := s.pool.ring.requestHead + 1 } },
        drains := s.drains ++ [(s.pool.ring.requestHead, i)] }.goto i (.testCleanup s.pool.ring.requestHead)) := by
  refine accounts.claim (c := .shutter i) free (fun q d => ?_)
    (@ShutPool.holds_shutter s _ i (.testCleanup s.pool.ring.requestHead) rfl rfl) rfl rfl rfl rfl
  cases d with
  | worker k => simp [ShutPool.claimed, ShutPool.goto]
  | shutter k => simp [ShutPool.claimed, ShutPool.goto]

/-- The task of a claimed index has no cleanup. -/
theorem Accounts.skip (accounts : Accounts s) {rh : Nat} {task : ThreadpoolTask} (held : (s.shutters i).holding = some rh)
    (stored : s.pool.ring.reserved[rh]? = some task) (none : task.cleanup = 0) (free : pc.holding = Option.none) :
    Accounts (s.goto i pc) := by
  have holds : (s.goto i pc).holds = update s.holds (.shutter i) pc.holding := ShutPool.holds_shutter rfl rfl
  rw [free] at holds
  refine accounts.enter (c := .shutter i) held holds rfl rfl rfl rfl ?_ fun _ _ => rfl
  have blank : s.log rh = ([], []) := (accounts.ledger.held rh (.shutter i) held).2
  change s.log rh = _
  unfold ShutPool.due
  rw [blank, stored]
  simp [Claimant.due, none]

/-- The cleanup of a claimed index is called. -/
theorem Accounts.clean (accounts : Accounts s) {rh : Nat} {task : ThreadpoolTask} (held : (s.shutters i).holding = some rh)
    (stored : s.pool.ring.reserved[rh]? = some task) (present : task.cleanup ≠ 0) (pc : ShutdownPc) (free : pc.holding = none) :
    Accounts ({ s with cleaned := s.cleaned ++ [(rh, task.cleanup, task.udata)] }.goto i pc) := by
  have holds : ({ s with cleaned := s.cleaned ++ [(rh, task.cleanup, task.udata)] }.goto i pc).holds =
      update s.holds (.shutter i) pc.holding := ShutPool.holds_shutter rfl rfl
  rw [free] at holds
  refine accounts.enter (c := .shutter i) held holds rfl rfl rfl rfl ?_ fun q apart => ?_
  · have blank : s.pool.executed.filter (·.1 == rh) = [] ∧ s.cleaned.filter (·.1 == rh) = [] :=
      Prod.mk.inj (accounts.ledger.held rh (.shutter i) held).2
    have own := filter_snoc_own s.cleaned (rh, task.cleanup, task.udata)
    dsimp only at own
    unfold ShutPool.log ShutPool.due
    dsimp only [ShutPool.goto]
    rw [own, blank.1, blank.2, stored]
    simp [Claimant.due, present]
  · unfold ShutPool.log
    dsimp only [ShutPool.goto]
    rw [filter_snoc_other (show q ≠ (rh, task.cleanup, task.udata).1 from apart)]

theorem Accounts.initial {cfg : ThreadpoolConfig} {start : Pool} (init : threadpoolInit cfg = some start) :
    Accounts (.fresh start) := by
  obtain ⟨_, _, _, request, claims, executed, workers⟩ := threadpoolInit_blank init
  have none (r : Nat) (c : Claimant) : ¬ (ShutPool.fresh start).claimed r c := by
    cases c with
    | worker j => simp [ShutPool.claimed, ShutPool.fresh, claims]
    | shutter i => simp [ShutPool.claimed, ShutPool.fresh]
  have free (c : Claimant) : (ShutPool.fresh start).holds c = Option.none := by
    cases c with
    | worker j => simp [ShutPool.holds, ShutPool.fresh, workers]
    | shutter i => rfl
  refine ⟨⟨fun r a b own _ => absurd own (none r a), fun r a held => ?_, fun r a own => absurd own (none r a), fun r _ => ?_⟩,
    fun r => ?_⟩
  · rw [free a] at held
    cases held
  · simp [ShutPool.log, ShutPool.fresh, executed]
  · change _ ↔ r < start.ring.requestHead
    rw [request]
    simp [none]

end Accounts

end Kinetic
