import Kinetic.Threadpool.WakeupWorkers

namespace Kinetic
open Transition Function

/-- What has become of the status of an entry: one of the values of `ThreadStatus`,
`STATUS_SHUTDOWN` or `STATUS_JOINED`. The last two are the ones a worker stops at. -/
inductive EndStatus
  | live
  | shutdown
  | joined
  deriving DecidableEq

/-- Where a worker stands in the parts of `thread_task` that matter once a pool is shut down. It is `tested` between a
successful test `ti->status < STATUS_SHUTDOWN` at the head of a loop and the access after it, at `hangup` when
`poll` has told it that its pipe is closed, and `leaving` behind the outer loop. -/
inductive WorkerStage
  | running
  | tested
  | hangup
  | leaving
  | exited
  deriving DecidableEq

/-- Where a thread stands in `Threadpool_Shutdown(t, false)`. `last` tells the second `notify_shutdown` from the first. -/
inductive ShutdownPc
  | idle (res : Option Bool)
  | setFlag
  | notify (last : Bool) (k done : Nat)
  | testJoined (last : Bool) (k done : Nat)
  | testShutdown (last : Bool) (k done : Nat)
  | join (last : Bool) (k done : Nat)
  | setJoined (last : Bool) (k done : Nat)
  | close (last : Bool) (k done : Nat)
  | result (last : Bool) (done : Nat)
  | drainCommit
  | drainRequest (ch : Nat)
  | drainLoad
  | drainCas (rh : Nat)
  | testCleanup (rh : Nat)
  | loadCleanup (rh : Nat)
  | callCleanup (rh cleanup : Nat)
  | clearUdata (rh : Nat)
  | adjLoad
  | adjCas (v : Nat)
  deriving DecidableEq

/-- A pool that may be shut down. `handle` is the thread in the `t` field of an entry, `closed` and `childClosed` are the
pipes whose write and read end have been closed, `joined` the threads given to `pthread_join`. `drains` has the index
and the caller of every claim made by a `Threadpool_Shutdown`, `cleaned` the index, function and argument of
every cleanup called, and `halted` is set when a `Threadpool_Shutdown` returns true. -/
structure ShutPool where
  pool : Pool
  shuttingDown : Bool
  ended : Nat → EndStatus
  handle : Nat → Option Nat
  stages : Nat → WorkerStage
  closed : Nat → Bool
  childClosed : Nat → Bool
  joined : Nat → Bool
  shutters : Nat → ShutdownPc
  drains : List (Nat × Nat)
  cleaned : List (Nat × Nat × Nat)
  halted : Bool

def ShutPool.fresh (p : Pool) : ShutPool :=
  { pool := p, shuttingDown := false, ended := fun _ => .live, handle := fun _ => none, stages := fun _ => .running,
    closed := fun _ => false, childClosed := fun _ => false, joined := fun _ => false, shutters := fun _ => .idle none,
    drains := [], cleaned := [], halted := false }

namespace ShutPool

def goto (s : ShutPool) (i : Nat) (pc : ShutdownPc) : ShutPool := { s with shutters := Function.update s.shutters i pc }

def setStage (s : ShutPool) (j : Nat) (stage : WorkerStage) : ShutPool :=
  { s with stages := Function.update s.stages j stage }

def setEnded (s : ShutPool) (k : Nat) (status : EndStatus) : ShutPool :=
  { s with ended := Function.update s.ended k status }

def fail (s : ShutPool) : ShutPool := { s with pool := s.pool.fail }

/-- The pipe that a write goes to has lost one of its ends. -/
def broken (s : ShutPool) (fd : Nat) : Bool := s.closed fd || s.childClosed fd

/-- One access to shared memory by a thread in `Threadpool_Schedule`. A write to a pipe that has been closed
ends the process, and `pthread_create` stores the new thread in the entry. -/
def schedStep (cfg : ThreadpoolConfig) (s : ShutPool) (i : Nat) (ok : Bool) : Option ShutPool :=
  let next := (s.pool.schedStep cfg i ok).map fun p => { s with pool := p }
  match s.pool.sched i with
  | .notifyStatus back k =>
    if s.ended k = .live then next else some { s with pool := s.pool.goto i (.notify back (k + 1)) }
  | .notifyWrite _ k => if s.broken (s.pool.threads k).parentFd then some s.fail else next
  | .spawnCreate _ id =>
    if ok then next.map fun s' => { s' with handle := Function.update s.handle id (some s.pool.created) } else next
  | .spawnAwake _ id => next.map fun s' => s'.setEnded id .live
  | _ => next

/-- One access to shared memory by worker `j`. `poll` reports a closed pipe before anything that is still in it,
and `read` returns 0 at the end of a closed pipe and an error when its own end is closed. -/
def workerStep (cfg : ThreadpoolConfig) (s : ShutPool) (j : Nat) (ok : Bool) : Option ShutPool :=
  match s.pool.workers j with
  | none => none
  | some w =>
    let next := (s.pool.workerStep cfg j ok).map fun p => { s with pool := p }
    let goto (pc : WorkerPc) : ShutPool := { s with pool := s.pool.setWorker j { w with pc := pc } }
    match s.stages j with
    | .exited => none
    | .leaving =>
      some ({ s with childClosed := Function.update s.childClosed (s.pool.threads w.slot).childFd true }.setStage j .exited)
    | .hangup => some ((s.setEnded w.slot .shutdown).setStage j .leaving)
    | .tested => next.map fun s' => s'.setStage j .running
    | .running =>
      match w.pc with
      | .testRequest => some (s.setStage j (if s.ended w.slot = .live then .tested else .leaving))
      | .sleepTest => if s.ended w.slot = .live then next else some (goto .poll)
      | .sleepSet => next.map fun s' => s'.setEnded w.slot .live
      | .poll => if ok && s.broken w.pfd then some (s.setStage j .hangup) else next
      | .wakeTest => if s.ended w.slot = .live then next else some (goto .read)
      | .wakeSet => next.map fun s' => s'.setEnded w.slot .live
      | .read =>
        let fd := (s.pool.threads w.slot).childFd
        if s.childClosed fd then some s.fail
        else if s.closed fd && s.pool.pipes fd == 0 then some (goto .claimCommit)
        else next
      | .claimCommit => if s.ended w.slot = .live then some (s.setStage j .tested) else some (goto .testRequest)
      | _ => next

/-- One access to shared memory by a thread in `Threadpool_Shutdown`. `pthread_join` waits for the end
of a worker, and fails with `ESRCH` for one that has been joined already. -/
def shutdownStep (cfg : ThreadpoolConfig) (s : ShutPool) (i : Nat) : Option ShutPool :=
  let ring := s.pool.ring
  match s.shutters i with
  | .idle _ => none
  | .setFlag => some ({ s with shuttingDown := true }.goto i (.notify false 0 0))
  | .notify last k done =>
    some (s.goto i (if k < s.pool.liveThreads then .testJoined last k done else .result last done))
  | .testJoined last k done =>
    some (s.goto i (if s.ended k = .joined then .notify last (k + 1) (done + 1) else .testShutdown last k done))
  | .testShutdown last k done =>
    some (s.goto i (if s.ended k = .shutdown then .join last k done else .close last k done))
  | .join last k done =>
    match s.handle k with
    | none => some s.fail
    | some j =>
      if s.stages j ≠ .exited then none
      else if s.joined j then some (s.goto i (.notify last (k + 1) done))
      else some ({ s with joined := Function.update s.joined j true }.goto i (.setJoined last k done))
  | .setJoined last k done => some ((s.setEnded k .joined).goto i (.notify last (k + 1) (done + 1)))
  | .close last k done =>
    some ({ s with closed := Function.update s.closed (s.pool.threads k).parentFd true }.goto i (.notify last (k + 1) done))
  | .result last done =>
    if last then
      let all := decide (done = s.pool.liveThreads)
      some ({ s with halted := s.halted || all }.goto i (.idle (some all)))
    else some (s.goto i .drainCommit)
  | .drainCommit => some (s.goto i (.drainRequest ring.commitHead))
  | .drainRequest ch => some (s.goto i (if ch > ring.requestHead then .drainLoad else .notify true 0 0))
  | .drainLoad => some (s.goto i (.drainCas ring.requestHead))
  | .drainCas rh =>
    if ring.requestHead = rh then
      some ({ s with pool := { s.pool with ring := { ring with requestHead := rh + 1 } }, drains := s.drains ++ [(rh, i)] }.goto
        i (.testCleanup rh))
    else some (s.goto i .drainCommit)
  | .testCleanup rh => some (s.goto i (if (ring.at cfg rh).cleanup = 0 then .adjLoad else .loadCleanup rh))
  | .loadCleanup rh => some (s.goto i (.callCleanup rh (ring.at cfg rh).cleanup))
  | .callCleanup rh cleanup =>
    some ({ s with cleaned := s.cleaned ++ [(rh, cleanup, (ring.at cfg rh).udata)] }.goto i (.clearUdata rh))
  | .clearUdata rh =>
    some ({ s with pool := { s.pool with ring := ring.write cfg rh { ring.at cfg rh with udata := 0 } } }.goto i .adjLoad)
  | .adjLoad => some (s.goto i (.adjCas ring.releaseHead))
  | .adjCas v =>
    if ring.releaseHead = v then
      some ({ s with pool := { s.pool with ring := { ring with releaseHead := v + 1 } } }.goto i .drainCommit)
    else some (s.goto i .adjLoad)

end ShutPool

/-- A call of `Threadpool_Schedule` or of `Threadpool_Shutdown(t, false)` by thread `i`, or one step of a thread. -/
inductive ShutLabel
  | call (i : Nat) (task : ThreadpoolTask)
  | sched (i : Nat) (ok : Bool)
  | worker (j : Nat) (ok : Bool)
  | shutdown (i : Nat)
  | shut (i : Nat)
  deriving DecidableEq

/-- One step of the pool. A `Threadpool_Schedule` that finds the pool shutting down returns false at once. -/
def shutStep (cfg : ThreadpoolConfig) (s : ShutPool) (label : ShutLabel) : Option ShutPool :=
  if s.pool.failed then none
  else
    match label with
    | .call i task =>
      match s.pool.sched i with
      | .idle _ =>
        if task.task = 0 then some s
        else if s.shuttingDown then some s
        else some { s with pool := s.pool.goto i (.loadReserve task) }
      | _ => none
    | .sched i ok => s.schedStep cfg i ok
    | .worker j ok => s.workerStep cfg j ok
    | .shutdown i =>
      match s.shutters i with
      | .idle _ => some (s.goto i .setFlag)
      | _ => none
    | .shut i => s.shutdownStep cfg i

namespace ShutPool
variable {cfg : ThreadpoolConfig} {s s' : ShutPool} {i j : Nat} {ok : Bool}

/-- To the pool a step in `Threadpool_Schedule` does what it does where nobody shuts the pool down, but
that it passes by a worker that has stopped and that a write to a broken pipe ends the process. -/
theorem schedStep_cases (taken : s.schedStep cfg i ok = some s') :
    (s.pool.schedStep cfg i ok = some s'.pool ∨
      (∃ back k, s.pool.sched i = .notifyStatus back k ∧ s'.pool = s.pool.goto i (.notify back (k + 1))) ∨
      s'.pool = s.pool.fail) ∧ s'.shutters = s.shutters ∧ s'.closed = s.closed := by
  unfold ShutPool.schedStep at taken
  dsimp only at taken
  split at taken
  · rename_i back k here
    split at taken
    · obtain ⟨p, moved, rfl⟩ := Option.map_eq_some_iff.mp taken
      exact ⟨Or.inl moved, rfl, rfl⟩
    · cases taken
      exact ⟨Or.inr (Or.inl ⟨back, k, here, rfl⟩), rfl, rfl⟩
  · split at taken
    · cases taken
      exact ⟨Or.inr (Or.inr rfl), rfl, rfl⟩
    · obtain ⟨p, moved, rfl⟩ := Option.map_eq_some_iff.mp taken
      exact ⟨Or.inl moved, rfl, rfl⟩
  · split at taken
    · rw [Option.map_map] at taken
      obtain ⟨p, moved, rfl⟩ := Option.map_eq_some_iff.mp taken
      exact ⟨Or.inl moved, rfl, rfl⟩
    · obtain ⟨p, moved, rfl⟩ := Option.map_eq_some_iff.mp taken
      exact ⟨Or.inl moved, rfl, rfl⟩
  · rw [Option.map_map] at taken
    obtain ⟨p, moved, rfl⟩ := Option.map_eq_some_iff.mp taken
    exact ⟨Or.inl moved, rfl, rfl⟩
  · obtain ⟨p, moved, rfl⟩ := Option.map_eq_some_iff.mp taken
    exact ⟨Or.inl moved, rfl, rfl⟩

/-- To the pool a step of a worker does what it does where nobody shuts the pool down, or
it does nothing but move the worker, or it ends the process. -/
theorem workerStep_cases (taken : s.workerStep cfg j ok = some s') :
    (s.pool.workerStep cfg j ok = some s'.pool ∨ s'.pool = s.pool ∨ s'.pool = s.pool.fail ∨
      ∃ w pc, s.pool.workers j = some w ∧ w.pc ≠ .start ∧ s'.pool = s.pool.setWorker j { w with pc := pc }) ∧
      s'.shutters = s.shutters ∧ s'.closed = s.closed := by
  unfold ShutPool.workerStep at taken
  split at taken
  · cases taken
  · rename_i w found
    have next (t : ShutPool) (taken : (s.pool.workerStep cfg j ok).map (fun p => { s with pool := p }) = some t) :
        s.pool.workerStep cfg j ok = some t.pool ∧ t.shutters = s.shutters ∧ t.closed = s.closed := by
      obtain ⟨p, moved, rfl⟩ := Option.map_eq_some_iff.mp taken
      exact ⟨moved, rfl, rfl⟩
    have changed (change : ShutPool → ShutPool)
        (taken : ((s.pool.workerStep cfg j ok).map fun p => { s with pool := p }).map change = some s')
        (keeps : ∀ t, (change t).pool = t.pool ∧ (change t).shutters = t.shutters ∧ (change t).closed = t.closed) :
        s.pool.workerStep cfg j ok = some s'.pool ∧ s'.shutters = s.shutters ∧ s'.closed = s.closed := by
      obtain ⟨t, moved, rfl⟩ := Option.map_eq_some_iff.mp taken
      rw [(keeps t).1, (keeps t).2.1, (keeps t).2.2]
      exact next t moved
    have goes (pc : WorkerPc) (started : w.pc ≠ .start) (there : s'.pool = s.pool.setWorker j { w with pc := pc }) :
        ∃ w pc, s.pool.workers j = some w ∧ w.pc ≠ .start ∧ s'.pool = s.pool.setWorker j { w with pc := pc } :=
      ⟨w, pc, found, started, there⟩
    dsimp only at taken
    split at taken
    · cases taken
    · cases taken
      exact ⟨Or.inr (Or.inl rfl), rfl, rfl⟩
    · cases taken
      exact ⟨Or.inr (Or.inl rfl), rfl, rfl⟩
    · exact (changed _ taken fun _ => ⟨rfl, rfl, rfl⟩).imp_left Or.inl
    · split at taken
      · cases taken
        exact ⟨Or.inr (Or.inl rfl), rfl, rfl⟩
      · rename_i pc
        split at taken
        · exact (next s' taken).imp_left Or.inl
        · cases taken
          exact ⟨Or.inr (Or.inr (Or.inr (goes _ (by rw [pc]; rintro ⟨⟩) rfl))), rfl, rfl⟩
      · exact (changed _ taken fun _ => ⟨rfl, rfl, rfl⟩).imp_left Or.inl
      · split at taken
        · cases taken
          exact ⟨Or.inr (Or.inl rfl), rfl, rfl⟩
        · exact (next s' taken).imp_left Or.inl
      · rename_i pc
        split at taken
        · exact (next s' taken).imp_left Or.inl
        · cases taken
          exact ⟨Or.inr (Or.inr (Or.inr (goes _ (by rw [pc]; rintro ⟨⟩) rfl))), rfl, rfl⟩
      · exact (changed _ taken fun _ => ⟨rfl, rfl, rfl⟩).imp_left Or.inl
      · rename_i pc
        split at taken
        · cases taken
          exact ⟨Or.inr (Or.inr (Or.inl rfl)), rfl, rfl⟩
        · split at taken
          · cases taken
            exact ⟨Or.inr (Or.inr (Or.inr (goes _ (by rw [pc]; rintro ⟨⟩) rfl))), rfl, rfl⟩
          · exact (next s' taken).imp_left Or.inl
      · rename_i pc
        split at taken <;> cases taken
        · exact ⟨Or.inr (Or.inl rfl), rfl, rfl⟩
        · exact ⟨Or.inr (Or.inr (Or.inr (goes _ (by rw [pc]; rintro ⟨⟩) rfl))), rfl, rfl⟩
      · exact (next s' taken).imp_left Or.inl

/-- A step in `Threadpool_Shutdown` changes nothing of the pool but its ring, and moves no other thread. -/
theorem shutdownStep_frame (taken : s.shutdownStep cfg i = some s') :
    (∃ ring failed, s'.pool = { s.pool with ring := ring, failed := failed }) ∧
      (s'.shutters = s.shutters ∨ ∃ pc, s'.shutters = Function.update s.shutters i pc) := by
  cases pc : s.shutters i <;> simp only [ShutPool.shutdownStep, pc] at taken
  case idle res => cases taken
  case join last m done =>
    split at taken
    · cases taken
      exact ⟨⟨_, _, rfl⟩, Or.inl rfl⟩
    · split at taken
      · cases taken
      · split at taken <;> cases taken <;> exact ⟨⟨_, _, rfl⟩, Or.inr ⟨_, rfl⟩⟩
  all_goals first
    | (cases taken; exact ⟨⟨_, _, rfl⟩, Or.inr ⟨_, rfl⟩⟩)
    | (split at taken <;> cases taken <;> exact ⟨⟨_, _, rfl⟩, Or.inr ⟨_, rfl⟩⟩)

end ShutPool

end Kinetic
