import Kinetic.Lib.Transition
import Mathlib.Algebra.Group.Nat.Defs
import Mathlib.Logic.Function.Basic

namespace Kinetic

/-- The range of a `size_t`. -/
def sizeRange : Nat := 2 ^ 64

/-- `a - b` in `size_t`. -/
def sizeSub (a b : Nat) : Nat := (a + sizeRange - b) % sizeRange

/-- `~a` in `size_t`. -/
def sizeNot (a : Nat) : Nat := sizeRange - 1 - a

def defaultTaskRingbufSize2 : Nat := 8
def defaultMaxThreads : Nat := 8
def threadpoolMaxRingbufSize2 : Nat := 30

structure ThreadpoolConfig where
  taskRingbufSize2 : Nat
  maxThreads : Nat

def setDefaults (cfg : ThreadpoolConfig) : ThreadpoolConfig :=
  { taskRingbufSize2 := if cfg.taskRingbufSize2 = 0 then defaultTaskRingbufSize2 else cfg.taskRingbufSize2,
    maxThreads := if cfg.maxThreads = 0 then defaultMaxThreads else cfg.maxThreads }

/-- `struct threadpool_task`: two function pointers and the argument, as addresses; 0 is `NULL`. -/
structure ThreadpoolTask where
  task : Nat
  cleanup : Nat
  udata : Nat
  deriving DecidableEq

structure MarkedTask extends ThreadpoolTask where
  mark : Nat
  deriving DecidableEq

/-- The states of a worker that exist while nobody shuts the pool down. -/
inductive ThreadStatus
  | none
  | asleep
  | awake
  deriving DecidableEq

/-- `struct thread_info`. Both ends of an alert pipe go by the number of that pipe. -/
structure ThreadInfo where
  parentFd : Nat
  childFd : Nat
  status : ThreadStatus
  deriving DecidableEq

/-- Where a thread stands in `Threadpool_Schedule` and the functions it calls, named after its next
access to shared memory, with the locals that are live there. `back` is the value for `*pushback`. -/
inductive SchedPc
  | idle (res : Option (Bool × Nat))
  | loadReserve (task : ThreadpoolTask)
  | loadRelease (task : ThreadpoolTask) (wh : Nat)
  | casReserve (task : ThreadpoolTask) (wh rh : Nat)
  | assertReserve (task : ThreadpoolTask) (wh back : Nat)
  | assertRelease (task : ThreadpoolTask) (wh back reserve : Nat)
  | writeTask (task : ThreadpoolTask) (wh back : Nat)
  | writeCleanup (task : ThreadpoolTask) (wh back : Nat)
  | writeUdata (task : ThreadpoolTask) (wh back : Nat)
  | writeMark (task : ThreadpoolTask) (wh back : Nat)
  | loadCommit (back : Nat)
  | loadMark (back ch : Nat)
  | assertReserved (back ch : Nat)
  | casCommit (back ch : Nat)
  | assertRequest (back : Nat)
  | assertCommit (back request : Nat)
  | notify (back i : Nat)
  | notifyStatus (back i : Nat)
  | notifyWrite (back i : Nat)
  | spawnTest (back : Nat)
  | spawnId (back : Nat)
  | spawnPipe (back id : Nat)
  | spawnChildFd (back id fd : Nat)
  | spawnParentFd (back id fd : Nat)
  | spawnCreate (back id : Nat)
  | spawnAwake (back id : Nat)
  | adjLoad (back : Nat)
  | adjCas (back v : Nat)
  deriving DecidableEq

/-- Where a worker stands in `thread_task` and `release_current_task`. -/
inductive WorkerPc
  | start
  | testRequest
  | testCommit (request : Nat)
  | sleepTest
  | sleepSet
  | poll
  | wakeTest
  | wakeSet
  | read
  | claimCommit
  | claimRequest (ch : Nat)
  | claimCas (rh : Nat)
  | assertMark (rh : Nat)
  | copyTask (rh : Nat)
  | copyCleanup (rh task : Nat)
  | copyUdata (rh task cleanup : Nat)
  | releaseMark (rh : Nat) (task : ThreadpoolTask)
  | loadRelease (rh : Nat) (task : ThreadpoolTask)
  | loadReleased (rh : Nat) (task : ThreadpoolTask) (relh : Nat)
  | casRelease (rh : Nat) (task : ThreadpoolTask) (relh : Nat)
  | assertReleased (rh : Nat) (task : ThreadpoolTask) (relh : Nat)
  | run (rh : Nat) (task : ThreadpoolTask)
  deriving DecidableEq

/-- A created worker: the index of its `thread_info`, the pipe it polls, and where it stands. -/
structure Worker where
  slot : Nat
  pfd : Nat
  pc : WorkerPc
  deriving DecidableEq

/-- The four counters and the ring buffer of `struct threadpool`, with the tasks
of the calls that have reserved an index so far, in the order of the indices. -/
structure TaskRing where
  reserveHead : Nat
  commitHead : Nat
  requestHead : Nat
  releaseHead : Nat
  tasks : Nat → MarkedTask
  reserved : List ThreadpoolTask

/-- The pool with its threads. `claims` has the index and the worker of every claim, in order, and
`executed` the index, function and argument of every task run. `failed` is set by a failing assertion. -/
structure Pool where
  ring : TaskRing
  liveThreads : Nat
  threads : Nat → ThreadInfo
  pipes : Nat → Nat
  nextPipe : Nat
  sched : Nat → SchedPc
  workers : Nat → Option Worker
  created : Nat
  claims : List (Nat × Nat)
  executed : List (Nat × Nat × Nat)
  failed : Bool

/-- `Threadpool_Init` with its allocations succeeding: `tasks` is filled with 0xFF bytes. -/
def threadpoolInit (cfg : ThreadpoolConfig) : Option Pool :=
  let cfg := setDefaults cfg
  if cfg.taskRingbufSize2 > threadpoolMaxRingbufSize2 then none
  else if cfg.maxThreads < 1 then none
  else some
    { ring :=
        { reserveHead := 0, commitHead := 0, requestHead := 0, releaseHead := 0, reserved := [],
          tasks := fun _ =>
            { task := sizeRange - 1, cleanup := sizeRange - 1, udata := sizeRange - 1, mark := sizeRange - 1 } },
      liveThreads := 0, threads := fun _ => { parentFd := 0, childFd := 0, status := .none },
      pipes := fun _ => 0, nextPipe := 1, sched := fun _ => .idle none, workers := fun _ => none, created := 0,
      claims := [], executed := [], failed := false }

def ThreadpoolConfig.ringbufSize (cfg : ThreadpoolConfig) : Nat := 2 ^ (setDefaults cfg).taskRingbufSize2

/-- `index & mask`. -/
def ThreadpoolConfig.slot (cfg : ThreadpoolConfig) (index : Nat) : Nat := index &&& (cfg.ringbufSize - 1)

def TaskRing.at (ring : TaskRing) (cfg : ThreadpoolConfig) (index : Nat) : MarkedTask := ring.tasks (cfg.slot index)

def TaskRing.write (ring : TaskRing) (cfg : ThreadpoolConfig) (index : Nat) (entry : MarkedTask) : TaskRing :=
  { ring with tasks := Function.update ring.tasks (cfg.slot index) entry }

namespace Pool

def goto (p : Pool) (i : Nat) (pc : SchedPc) : Pool := { p with sched := Function.update p.sched i pc }

def fail (p : Pool) : Pool := { p with failed := true }

def setThread (p : Pool) (id : Nat) (ti : ThreadInfo) : Pool := { p with threads := Function.update p.threads id ti }

def setWorker (p : Pool) (j : Nat) (w : Worker) : Pool := { p with workers := Function.update p.workers j (some w) }

/-- One access to shared memory by a thread in `Threadpool_Schedule`, and the computation up to its next one.
Both operands of a comparison are loaded from left to right. `ok` is whether an allocation, `pipe`
or `pthread_create` met by the step succeeds. -/
def schedStep (cfg : ThreadpoolConfig) (p : Pool) (i : Nat) (ok : Bool) : Option Pool :=
  let queueSize := cfg.ringbufSize - 1
  match p.sched i with
  | .idle _ => none
  | .loadReserve task => some (p.goto i (.loadRelease task p.ring.reserveHead))
  | .loadRelease task wh =>
    let rh := p.ring.releaseHead
    if sizeSub wh rh ≥ queueSize - 1 then some (p.goto i (.idle (some (false, sizeSub wh rh))))
    else some (p.goto i (.casReserve task wh rh))
  | .casReserve task wh rh =>
    if p.ring.reserveHead = wh then
      some ({ p with ring := { p.ring with reserveHead := wh + 1, reserved := p.ring.reserved ++ [task] } }.goto i
        (.assertReserve task wh (sizeSub wh rh)))
    else some (p.goto i (.loadReserve task))
  | .assertReserve task wh back => some (p.goto i (.assertRelease task wh back p.ring.reserveHead))
  | .assertRelease task wh back reserve =>
    if sizeSub reserve p.ring.releaseHead < queueSize then some (p.goto i (.writeTask task wh back)) else some p.fail
  | .writeTask task wh back =>
    some ({ p with ring := p.ring.write cfg wh { p.ring.at cfg wh with task := task.task } }.goto i
      (.writeCleanup task wh back))
  | .writeCleanup task wh back =>
    some ({ p with ring := p.ring.write cfg wh { p.ring.at cfg wh with cleanup := task.cleanup } }.goto i
      (.writeUdata task wh back))
  | .writeUdata task wh back =>
    some ({ p with ring := p.ring.write cfg wh { p.ring.at cfg wh with udata := task.udata } }.goto i
      (.writeMark task wh back))
  | .writeMark _ wh back =>
    some ({ p with ring := p.ring.write cfg wh { p.ring.at cfg wh with mark := wh } }.goto i (.loadCommit back))
  | .loadCommit back => some (p.goto i (.loadMark back p.ring.commitHead))
  | .loadMark back ch =>
    if ch ≠ (p.ring.at cfg ch).mark then some (p.goto i (.notify back 0)) else some (p.goto i (.assertReserved back ch))
  | .assertReserved back ch =>
    if ch < p.ring.reserveHead then some (p.goto i (.casCommit back ch)) else some p.fail
  | .casCommit back ch =>
    if p.ring.commitHead = ch then
      some ({ p with ring := { p.ring with commitHead := ch + 1 } }.goto i (.assertRequest back))
    else some (p.goto i (.loadCommit back))
  | .assertRequest back => some (p.goto i (.assertCommit back p.ring.requestHead))
  | .assertCommit back request =>
    if request ≤ p.ring.commitHead then some (p.goto i (.loadCommit back)) else some p.fail
  | .notify back k =>
    if k < p.liveThreads then some (p.goto i (.notifyStatus back k)) else some (p.goto i (.spawnTest back))
  | .notifyStatus back k =>
    if (p.threads k).status = .asleep then some (p.goto i (.notifyWrite back k))
    else some (p.goto i (.notify back (k + 1)))
  | .notifyWrite back k =>
    let fd := (p.threads k).parentFd
    some ({ p with pipes := Function.update p.pipes fd (p.pipes fd + 1) }.goto i (.idle (some (true, back))))
  | .spawnTest back =>
    if p.liveThreads < (setDefaults cfg).maxThreads then some (p.goto i (.spawnId back))
    else some (p.goto i (.idle (some (true, back))))
  | .spawnId back =>
    if p.liveThreads ≥ (setDefaults cfg).maxThreads then some (p.goto i (.idle (some (true, back))))
    else some (p.goto i (.spawnPipe back p.liveThreads))
  | .spawnPipe back id =>
    if ok then some ({ p with nextPipe := p.nextPipe + 1 }.goto i (.spawnChildFd back id p.nextPipe))
    else some (p.goto i (.idle (some (true, back))))
  | .spawnChildFd back id fd =>
    some ((p.setThread id { p.threads id with childFd := fd }).goto i (.spawnParentFd back id fd))
  | .spawnParentFd back id fd =>
    some ((p.setThread id { p.threads id with parentFd := fd }).goto i (.spawnCreate back id))
  | .spawnCreate back id =>
    if ok then
      some ({ p.setWorker p.created ⟨id, 0, .start⟩ with created := p.created + 1 }.goto i (.spawnAwake back id))
    else some (p.goto i (.idle (some (true, back))))
  | .spawnAwake back id => some ((p.setThread id { p.threads id with status := .awake }).goto i (.adjLoad back))
  | .adjLoad back => some (p.goto i (.adjCas back p.liveThreads))
  | .adjCas back v =>
    if p.liveThreads = v then
      some ({ p with liveThreads := (v + 1) % 256 }.goto i (.idle (some (true, back))))
    else some (p.goto i (.adjLoad back))

/-- One access to shared memory by worker `j`. A `poll` returns 1 once the worker's pipe is not empty, or, with
`ok` false, something else when a signal interrupts it; `read` takes up to 32 notifications and waits for one. -/
def workerStep (cfg : ThreadpoolConfig) (p : Pool) (j : Nat) (ok : Bool) : Option Pool :=
  match p.workers j with
  | none => none
  | some w =>
    let goto (p : Pool) (pc : WorkerPc) : Pool := p.setWorker j { w with pc := pc }
    let ti := p.threads w.slot
    match w.pc with
    | .start => some (p.setWorker j { w with pfd := ti.childFd, pc := .testRequest })
    | .testRequest => some (goto p (.testCommit p.ring.requestHead))
    | .testCommit request => if request = p.ring.commitHead then some (goto p .sleepTest) else some (goto p .claimCommit)
    | .sleepTest => if ti.status = .awake then some (goto p .sleepSet) else some (goto p .poll)
    | .sleepSet => some (goto (p.setThread w.slot { ti with status := .asleep }) .poll)
    | .poll => if ok then if p.pipes w.pfd = 0 then none else some (goto p .wakeTest) else some (goto p .claimCommit)
    | .wakeTest => if ti.status = .asleep then some (goto p .wakeSet) else some (goto p .read)
    | .wakeSet => some (goto (p.setThread w.slot { ti with status := .awake }) .read)
    | .read =>
      let n := p.pipes ti.childFd
      if n = 0 then none else some (goto { p with pipes := Function.update p.pipes ti.childFd (n - min n 32) } .claimCommit)
    | .claimCommit => some (goto p (.claimRequest p.ring.commitHead))
    | .claimRequest ch =>
      let rh := p.ring.requestHead
      if rh > sizeSub ch 1 then some (goto p .testRequest) else some (goto p (.claimCas rh))
    | .claimCas rh =>
      if p.ring.requestHead = rh then
        some (goto { p with ring := { p.ring with requestHead := rh + 1 }, claims := p.claims ++ [(rh, j)] } (.assertMark rh))
      else some (goto p .claimCommit)
    | .assertMark rh => if (p.ring.at cfg rh).mark = rh then some (goto p (.copyTask rh)) else some p.fail
    | .copyTask rh => some (goto p (.copyCleanup rh (p.ring.at cfg rh).task))
    | .copyCleanup rh task => some (goto p (.copyUdata rh task (p.ring.at cfg rh).cleanup))
    | .copyUdata rh task cleanup => some (goto p (.releaseMark rh ⟨task, cleanup, (p.ring.at cfg rh).udata⟩))
    | .releaseMark rh task =>
      some (goto { p with ring := p.ring.write cfg rh { p.ring.at cfg rh with mark := sizeNot rh } } (.loadRelease rh task))
    | .loadRelease rh task => some (goto p (.loadReleased rh task p.ring.releaseHead))
    | .loadReleased rh task relh =>
      if (p.ring.at cfg relh).mark ≠ sizeNot relh then some (goto p (.run rh task))
      else some (goto p (.casRelease rh task relh))
    | .casRelease rh task relh =>
      if p.ring.releaseHead = relh then
        some (goto { p with ring := { p.ring with releaseHead := relh + 1 } } (.assertReleased rh task relh))
      else some (goto p (.loadRelease rh task))
    | .assertReleased rh task relh =>
      if relh < p.ring.commitHead then some (goto p (.loadRelease rh task)) else some p.fail
    | .run rh task => some (goto { p with executed := p.executed ++ [(rh, task.task, task.udata)] } .testRequest)

end Pool

/-- A call of `Threadpool_Schedule` by thread `i`, or one step of a calling thread or of a worker. -/
inductive PoolLabel
  | call (i : Nat) (task : ThreadpoolTask)
  | sched (i : Nat) (ok : Bool)
  | worker (j : Nat) (ok : Bool)
  deriving DecidableEq

/-- One step of the pool, which a failed assertion stops. A call with no function returns false at once. -/
def poolStep (cfg : ThreadpoolConfig) (p : Pool) (label : PoolLabel) : Option Pool :=
  if p.failed then none
  else
    match label with
    | .call i task =>
      match p.sched i with
      | .idle _ => if task.task = 0 then some p else some (p.goto i (.loadReserve task))
      | _ => none
    | .sched i ok => p.schedStep cfg i ok
    | .worker j ok => p.workerStep cfg j ok

end Kinetic
