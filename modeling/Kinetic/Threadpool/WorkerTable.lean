import Kinetic.Threadpool.WakeupWorkers

namespace Kinetic
open Transition Function

/-- The entry of `threads` that a worker was created for. -/
def Pool.slotOf (p : Pool) (j : Nat) : Option Nat := (p.workers j).map Worker.slot

/-- The thread has begun to fill the entry it chose in `spawn`, and has not yet counted the worker in it. -/
def SchedPc.filling : SchedPc → Bool
  | .spawnParentFd _ _ _ => true
  | .spawnCreate _ _ => true
  | .spawnAwake _ _ => true
  | .adjLoad _ => true
  | .adjCas _ _ => true
  | _ => false

/-- A thread begins to fill an entry only if that is still the first free one and no other thread is filling one. -/
def FillsAlone (p : Pool) : PoolLabel → Prop
  | .sched i _ => ∀ back id fd, p.sched i = .spawnChildFd back id fd →
      id = p.liveThreads ∧ ∀ k, k ≠ i → (p.sched k).filling = false
  | _ => True

/-- Both ends of one pipe are in the entry. -/
def ThreadInfo.Wired (ti : ThreadInfo) : Prop := ti.childFd = ti.parentFd ∧ ti.childFd ≠ 0

/-- Exactly one worker was created for entry `k`. -/
def Pool.Manned (p : Pool) (k : Nat) : Prop := ∃! j, p.slotOf j = some k

/-- What a thread in `spawn` relies on. -/
def SpawnFacts (cfg : ThreadpoolConfig) (p : Pool) : SchedPc → Prop
  | .spawnPipe _ id => id < (setDefaults cfg).maxThreads
  | .spawnChildFd _ id fd => id < (setDefaults cfg).maxThreads ∧ fd ≠ 0
  | .spawnParentFd _ id fd =>
    id = p.liveThreads ∧ p.liveThreads < (setDefaults cfg).maxThreads ∧ (p.threads id).childFd = fd ∧ fd ≠ 0
  | .spawnCreate _ id => id = p.liveThreads ∧ p.liveThreads < (setDefaults cfg).maxThreads ∧ (p.threads id).Wired
  | .spawnAwake _ id =>
    id = p.liveThreads ∧ p.liveThreads < (setDefaults cfg).maxThreads ∧ (p.threads id).Wired ∧ p.Manned id
  | .adjLoad _ => p.liveThreads < (setDefaults cfg).maxThreads ∧ (p.threads p.liveThreads).Wired ∧
      p.Manned p.liveThreads ∧ (p.threads p.liveThreads).status ≠ .none
  | .adjCas _ v => v = p.liveThreads ∧ p.liveThreads < (setDefaults cfg).maxThreads ∧ (p.threads p.liveThreads).Wired ∧
      p.Manned p.liveThreads ∧ (p.threads p.liveThreads).status ≠ .none
  | _ => True

/-- The table of workers: the entries that count are filled, with one worker each, and at most one more is being filled. -/
structure TableInv (cfg : ThreadpoolConfig) (p : Pool) : Prop where
  live : p.liveThreads ≤ (setDefaults cfg).maxThreads
  pipe : p.nextPipe ≠ 0
  alone : ∀ i k, (p.sched i).filling = true → (p.sched k).filling = true → i = k
  spawn : ∀ i, SpawnFacts cfg p (p.sched i)
  entry : ∀ k < p.liveThreads, p.Manned k ∧ (p.threads k).Wired ∧ (p.threads k).status ≠ .none
  placed : ∀ j k, p.slotOf j = some k → k < p.liveThreads ∨ k = p.liveThreads ∧ ∃ i, (p.sched i).spawned = true
  polled : ∀ j w, p.workers j = some w → w.pc = .start ∨ w.pfd = (p.threads w.slot).childFd

section Table
variable {cfg : ThreadpoolConfig} {start p p' : Pool} {i : Nat} {pc : SchedPc}

theorem SchedPc.filling_of_spawned (spawned : pc.spawned = true) : pc.filling = true := by
  cases pc <;> first | rfl | cases spawned

theorem Pool.slotOf_congr (workers : p'.workers = p.workers) : p'.slotOf = p.slotOf := by
  funext j
  unfold Pool.slotOf
  rw [workers]

theorem Pool.manned_congr (same : p'.slotOf = p.slotOf) {k : Nat} : p'.Manned k ↔ p.Manned k := by
  unfold Pool.Manned
  rw [same]

/-- What a thread that fills no entry relies on does not depend on the pool. -/
theorem SpawnFacts.outside (facts : SpawnFacts cfg p pc) (outside : pc.filling = false) : SpawnFacts cfg p' pc := by
  cases pc <;> first | exact facts | cases outside

theorem SpawnFacts.frame (facts : SpawnFacts cfg p pc) (live : p'.liveThreads = p.liveThreads)
    (slots : p'.slotOf = p.slotOf) (wired : ∀ k, (p'.threads k).childFd = (p.threads k).childFd ∧
      (p'.threads k).parentFd = (p.threads k).parentFd)
    (status : ∀ k, (p.threads k).status ≠ .none → (p'.threads k).status ≠ .none) : SpawnFacts cfg p' pc := by
  have keep (k : Nat) (before : (p.threads k).Wired) : (p'.threads k).Wired := by
    unfold ThreadInfo.Wired
    rw [(wired k).1, (wired k).2]
    exact before
  cases pc with
  | spawnParentFd back id fd =>
    obtain ⟨here, room, child, open_⟩ := facts
    exact ⟨here.trans live.symm, live ▸ room, (wired id).1.trans child, open_⟩
  | spawnCreate back id =>
    obtain ⟨here, room, before⟩ := facts
    exact ⟨here.trans live.symm, live ▸ room, keep id before⟩
  | spawnAwake back id =>
    obtain ⟨here, room, before, manned⟩ := facts
    exact ⟨here.trans live.symm, live ▸ room, keep id before, (Pool.manned_congr slots).mpr manned⟩
  | adjLoad back =>
    obtain ⟨room, before, manned, awake⟩ := facts
    unfold SpawnFacts
    rw [live]
    exact ⟨room, keep _ before, (Pool.manned_congr slots).mpr manned, status _ awake⟩
  | adjCas back v =>
    obtain ⟨here, room, before, manned, awake⟩ := facts
    unfold SpawnFacts
    rw [live]
    exact ⟨here, room, keep _ before, (Pool.manned_congr slots).mpr manned, status _ awake⟩
  | _ => exact facts

/-- A step of a thread that fills no entry, before it or after it. -/
theorem TableInv.sched_outside (inv : TableInv cfg p) (before : (p.sched i).filling = false) (after : pc.filling = false)
    (sched : p'.sched = update p.sched i pc) (threads : p'.threads = p.threads) (workers : p'.workers = p.workers)
    (live : p'.liveThreads = p.liveThreads) (pipe : p'.nextPipe ≠ 0) (facts : SpawnFacts cfg p pc) : TableInv cfg p' := by
  have slots := Pool.slotOf_congr workers
  have old (k : Nat) (fills : (p'.sched k).filling = true) : k ≠ i ∧ p'.sched k = p.sched k := by
    have apart : k ≠ i := by
      rintro rfl
      rw [sched, update_self, after] at fills
      cases fills
    exact ⟨apart, by rw [sched, update_of_ne apart]⟩
  refine ⟨live ▸ inv.live, pipe, fun k l fills fills' => ?_, fun k => ?_, fun k below => ?_, fun j k found => ?_, ?_⟩
  · rw [(old k fills).2] at fills
    rw [(old l fills').2] at fills'
    exact inv.alone k l fills fills'
  · rw [sched]
    by_cases same : k = i
    · subst k
      rw [update_self]
      exact facts.outside after
    · rw [update_of_ne same]
      exact (inv.spawn k).frame live slots (fun _ => by rw [threads]; exact ⟨rfl, rfl⟩) fun _ => by rw [threads]; exact id
  · rw [live] at below
    rw [threads]
    exact ⟨(Pool.manned_congr slots).mpr (inv.entry k below).1, (inv.entry k below).2⟩
  · rw [slots] at found
    rw [live]
    rcases inv.placed j k found with below | ⟨here, l, spawned⟩
    · exact Or.inl below
    · have apart : l ≠ i := by
        rintro rfl
        rw [SchedPc.filling_of_spawned spawned] at before
        cases before
      exact Or.inr ⟨here, l, by rw [sched, update_of_ne apart]; exact spawned⟩
  · rw [workers, threads]
    exact inv.polled

/-- A step of the thread that fills an entry, or begins to. -/
theorem TableInv.sched_filling (inv : TableInv cfg p) (others : ∀ k, k ≠ i → (p.sched k).filling = false)
    (sched : p'.sched = update p.sched i pc) (live : p'.liveThreads ≤ (setDefaults cfg).maxThreads)
    (pipe : p'.nextPipe = p.nextPipe) (facts : SpawnFacts cfg p' pc)
    (entry : ∀ k < p'.liveThreads, p'.Manned k ∧ (p'.threads k).Wired ∧ (p'.threads k).status ≠ .none)
    (placed : ∀ j k, p'.slotOf j = some k → k < p'.liveThreads ∨ k = p'.liveThreads ∧ pc.spawned = true)
    (polled : ∀ j w, p'.workers j = some w → w.pc = .start ∨ w.pfd = (p'.threads w.slot).childFd) : TableInv cfg p' := by
  have only (k : Nat) (fills : (p'.sched k).filling = true) : k = i := by
    by_contra apart
    rw [sched, update_of_ne apart, others k apart] at fills
    cases fills
  refine ⟨live, pipe ▸ inv.pipe, fun k l fills fills' => (only k fills).trans (only l fills').symm, fun k => ?_, entry,
    fun j k found => ?_, polled⟩
  · rw [sched]
    by_cases same : k = i
    · subst k
      rw [update_self]
      exact facts
    · rw [update_of_ne same]
      exact (inv.spawn k).outside (others k same)
  · rcases placed j k found with below | ⟨here, spawned⟩
    · exact Or.inl below
    · exact Or.inr ⟨here, i, by rw [sched, update_self]; exact spawned⟩

theorem TableInv.others (inv : TableInv cfg p) (fills : (p.sched i).filling = true) (k : Nat) (apart : k ≠ i) :
    (p.sched k).filling = false := by
  by_contra busy
  exact apart (inv.alone k i (by simpa using busy) fills)

/-- While the only thread that fills an entry has not created its worker yet, all workers are in entries that count. -/
theorem TableInv.placed_below (inv : TableInv cfg p) (others : ∀ k, k ≠ i → (p.sched k).filling = false)
    (uncreated : (p.sched i).spawned = false) {j k : Nat} (found : p.slotOf j = some k) : k < p.liveThreads := by
  rcases inv.placed j k found with below | ⟨_, l, spawned⟩
  · exact below
  · by_cases same : l = i
    · subst l
      rw [uncreated] at spawned
      cases spawned
    · have idle := others l same
      rw [SchedPc.filling_of_spawned spawned] at idle
      cases idle

/-- The entry that is being filled is written to while it has no worker yet. -/
theorem TableInv.sched_wire (inv : TableInv cfg p) {ti : ThreadInfo} (others : ∀ k, k ≠ i → (p.sched k).filling = false)
    (uncreated : (p.sched i).spawned = false)
    (facts : SpawnFacts cfg ((p.setThread p.liveThreads ti).goto i pc) pc) :
    TableInv cfg ((p.setThread p.liveThreads ti).goto i pc) := by
  have kept (k : Nat) (below : k < p.liveThreads) : ((p.setThread p.liveThreads ti).goto i pc).threads k = p.threads k :=
    update_of_ne (Nat.ne_of_lt below) _ _
  refine inv.sched_filling others rfl inv.live rfl facts (fun k below => ?_) (fun j k found => ?_) fun j w found => ?_
  · rw [kept k below]
    exact inv.entry k below
  · exact Or.inl (inv.placed_below others uncreated found)
  · have below := inv.placed_below (j := j) others uncreated (by unfold Pool.slotOf; rw [show p.workers j = some w from found]; rfl)
    rw [kept _ below]
    exact inv.polled j w found

/-- `pthread_create` starts the one worker of the entry. -/
theorem TableInv.sched_create (inv : TableInv cfg p) (bounded : Bounded p) {back id : Nat}
    (here : p.sched i = .spawnCreate back id) :
    TableInv cfg ({ p.setWorker p.created ⟨id, 0, .start⟩ with created := p.created + 1 }.goto i (.spawnAwake back id)) := by
  have others := inv.others (i := i) (by rw [here]; rfl)
  have facts := inv.spawn i
  rw [here] at facts
  obtain ⟨rfl, room, wired⟩ := facts
  have fresh : p.slotOf p.created = none := by
    unfold Pool.slotOf
    cases found : p.workers p.created with
    | none => rfl
    | some w => exact absurd (bounded _ w found) (Nat.lt_irrefl _)
  have slots (j : Nat) : ({ p.setWorker p.created ⟨p.liveThreads, 0, .start⟩ with created := p.created + 1 }.goto i
      (.spawnAwake back p.liveThreads)).slotOf j = if j = p.created then some p.liveThreads else p.slotOf j := by
    unfold Pool.slotOf
    by_cases new : j = p.created
    · subst j
      rw [if_pos rfl]
      exact congrArg _ (update_self ..)
    · rw [if_neg new]
      exact congrArg _ (update_of_ne new _ _)
  have below (j k : Nat) (found : p.slotOf j = some k) : k < p.liveThreads :=
    inv.placed_below others (by rw [here]; rfl) found
  refine inv.sched_filling others rfl inv.live rfl ⟨rfl, room, wired, p.created, ?_, fun j found => ?_⟩
    (fun k low => ⟨?_, (inv.entry k low).2⟩) (fun j k found => ?_) fun j w found => ?_
  · exact (slots _).trans (if_pos rfl)
  · dsimp only at found
    rw [slots] at found
    split at found
    · assumption
    · exact absurd (below j _ found) (Nat.lt_irrefl _)
  · obtain ⟨j, found, only⟩ := (inv.entry k low).1
    have old : j ≠ p.created := by
      rintro rfl
      rw [fresh] at found
      cases found
    refine ⟨j, (slots j).trans ((if_neg old).trans found), fun l found' => only l ?_⟩
    dsimp only at found'
    rw [slots] at found'
    split at found'
    · cases found'
      exact absurd low (Nat.lt_irrefl _)
    · exact found'
  · rw [slots] at found
    split at found
    · cases found
      exact Or.inr ⟨rfl, rfl⟩
    · exact Or.inl (below j k found)
  · by_cases new : j = p.created
    · subst j
      cases (update_self ..).symm.trans found
      exact Or.inl rfl
    · exact inv.polled j w ((update_of_ne new _ _).symm.trans found)

/-- The entry has its worker and gets its status. -/
theorem TableInv.sched_awake (inv : TableInv cfg p) {back id : Nat} (here : p.sched i = .spawnAwake back id) :
    TableInv cfg ((p.setThread id { p.threads id with status := .awake }).goto i (.adjLoad back)) := by
  have others := inv.others (i := i) (by rw [here]; rfl)
  have facts := inv.spawn i
  rw [here] at facts
  obtain ⟨rfl, room, wired, manned⟩ := facts
  have own : (p.setThread p.liveThreads { p.threads p.liveThreads with status := .awake }).threads p.liveThreads =
      { p.threads p.liveThreads with status := .awake } := update_self ..
  have kept (k : Nat) (apart : k ≠ p.liveThreads) : (p.setThread p.liveThreads
      { p.threads p.liveThreads with status := .awake }).threads k = p.threads k := update_of_ne apart _ _
  refine inv.sched_filling others rfl inv.live rfl ⟨room, ?_, manned, ?_⟩ (fun k below => ?_) (fun j k found => ?_)
    fun j w found => ?_
  · change ((p.setThread p.liveThreads { p.threads p.liveThreads with status := .awake }).threads p.liveThreads).Wired
    rw [own]
    exact wired
  · change ((p.setThread p.liveThreads { p.threads p.liveThreads with status := .awake }).threads p.liveThreads).status ≠ _
    rw [own]
    nofun
  · have same := kept k (Nat.ne_of_lt below)
    exact ⟨(inv.entry k below).1, same ▸ (inv.entry k below).2⟩
  · rcases inv.placed j k found with below | ⟨last, _⟩
    · exact Or.inl below
    · exact Or.inr ⟨last, rfl⟩
  · change w.pc = .start ∨ w.pfd =
      ((p.setThread p.liveThreads { p.threads p.liveThreads with status := .awake }).threads w.slot).childFd
    by_cases last : w.slot = p.liveThreads
    · rw [last, own, ← last]
      exact inv.polled j w found
    · rw [kept _ last]
      exact inv.polled j w found

/-- The worker is counted, and its entry is one of those that count. -/
theorem TableInv.sched_count (inv : TableInv cfg p) (small : (setDefaults cfg).maxThreads < 256) {back v : Nat}
    (here : p.sched i = .adjCas back v) :
    TableInv cfg ({ p with liveThreads := (v + 1) % 256 }.goto i (.idle (some (true, back)))) := by
  have others := inv.others (i := i) (by rw [here]; rfl)
  have facts := inv.spawn i
  rw [here] at facts
  obtain ⟨rfl, room, wired, manned, awake⟩ := facts
  rw [Nat.mod_eq_of_lt (by omega)]
  refine inv.sched_filling others rfl (by exact room) rfl trivial (fun k below => ?_) (fun j k found => ?_) inv.polled
  · change k < p.liveThreads + 1 at below
    by_cases last : k = p.liveThreads
    · subst k
      exact ⟨manned, wired, awake⟩
    · exact inv.entry k (by omega)
  · refine Or.inl ?_
    change k < p.liveThreads + 1
    rcases inv.placed j k found with below | ⟨last, _⟩ <;> omega

theorem TableInv.fail (inv : TableInv cfg p) : TableInv cfg p.fail :=
  ⟨inv.live, inv.pipe, inv.alone, fun i => (inv.spawn i).frame rfl rfl (fun _ => ⟨rfl, rfl⟩) fun _ => id, inv.entry, inv.placed,
    inv.polled⟩

theorem TableInv.schedStep (inv : TableInv cfg p) (bounded : Bounded p) (small : (setDefaults cfg).maxThreads < 256)
    {ok : Bool} (alone : FillsAlone p (.sched i ok)) (taken : p.schedStep cfg i ok = some p') : TableInv cfg p' := by
  have facts := inv.spawn i
  cases pc : p.sched i <;> simp only [Pool.schedStep, pc] at taken <;> rw [pc] at facts
  case idle res => cases taken
  case spawnId back =>
    split at taken <;> cases taken
    · exact inv.sched_outside (by rw [pc]; rfl) rfl rfl rfl rfl rfl inv.pipe trivial
    · rename_i room
      exact inv.sched_outside (by rw [pc]; rfl) rfl rfl rfl rfl rfl inv.pipe (Nat.lt_of_not_le room)
  case spawnPipe back id =>
    split at taken <;> cases taken
    · exact inv.sched_outside (by rw [pc]; rfl) rfl rfl rfl rfl rfl (Nat.succ_ne_zero _) ⟨facts, inv.pipe⟩
    · exact inv.sched_outside (by rw [pc]; rfl) rfl rfl rfl rfl rfl inv.pipe trivial
  case spawnChildFd back id fd =>
    cases taken
    obtain ⟨rfl, others⟩ := alone back id fd pc
    have own : ((p.setThread p.liveThreads { p.threads p.liveThreads with childFd := fd }).threads p.liveThreads).childFd =
        fd := by
      rw [show (p.setThread p.liveThreads { p.threads p.liveThreads with childFd := fd }).threads p.liveThreads = _ from
        update_self ..]
    exact inv.sched_wire others (by rw [pc]; rfl) ⟨rfl, facts.1, own, facts.2⟩
  case spawnParentFd back id fd =>
    cases taken
    obtain ⟨rfl, room, child, opened⟩ := facts
    have own : ((p.setThread p.liveThreads { p.threads p.liveThreads with parentFd := fd }).threads p.liveThreads).Wired := by
      rw [show (p.setThread p.liveThreads { p.threads p.liveThreads with parentFd := fd }).threads p.liveThreads = _ from
        update_self ..]
      exact ⟨child, child ▸ opened⟩
    exact inv.sched_wire (inv.others (by rw [pc]; rfl)) (by rw [pc]; rfl) ⟨rfl, room, own⟩
  case spawnCreate back id =>
    split at taken <;> cases taken
    · exact inv.sched_create bounded pc
    · have others := inv.others (i := i) (by rw [pc]; rfl)
      exact inv.sched_filling others rfl inv.live rfl trivial inv.entry
        (fun j k found => Or.inl (inv.placed_below others (by rw [pc]; rfl) found)) inv.polled
  case spawnAwake back id => cases taken; exact inv.sched_awake pc
  case adjLoad back =>
    cases taken
    refine inv.sched_filling (inv.others (by rw [pc]; rfl)) rfl inv.live rfl ⟨rfl, facts⟩ inv.entry (fun j k found => ?_) inv.polled
    rcases inv.placed j k found with below | ⟨last, _⟩
    · exact Or.inl below
    · exact Or.inr ⟨last, rfl⟩
  case adjCas back v =>
    rw [if_pos facts.1.symm] at taken
    cases taken
    exact inv.sched_count small pc
  all_goals first
    | (cases taken; exact inv.sched_outside (by rw [pc]; rfl) rfl rfl rfl rfl rfl inv.pipe trivial)
    | (split at taken <;> cases taken <;> first
        | exact inv.sched_outside (by rw [pc]; rfl) rfl rfl rfl rfl rfl inv.pipe trivial
        | exact inv.fail)

/-- A step of a worker, which writes to no field of a `thread_info` but the status of its own. -/
theorem TableInv.worker_move (inv : TableInv cfg p) {j : Nat} {w v : Worker} (found : p.workers j = some w)
    (workers : p'.workers = update p.workers j (some v)) (slot : v.slot = w.slot) (sched : p'.sched = p.sched)
    (live : p'.liveThreads = p.liveThreads) (pipe : p'.nextPipe = p.nextPipe)
    (fds : ∀ k, (p'.threads k).childFd = (p.threads k).childFd ∧ (p'.threads k).parentFd = (p.threads k).parentFd)
    (status : ∀ k, (p.threads k).status ≠ .none → (p'.threads k).status ≠ .none)
    (polled : v.pc = .start ∨ v.pfd = (p.threads w.slot).childFd) : TableInv cfg p' := by
  have slots : p'.slotOf = p.slotOf := by
    funext k
    unfold Pool.slotOf
    rw [workers]
    by_cases same : k = j
    · subst k
      rw [update_self, found]
      exact congrArg some slot
    · rw [update_of_ne same]
  refine ⟨live ▸ inv.live, pipe ▸ inv.pipe, sched ▸ inv.alone, fun i => ?_, fun k below => ?_, fun l k placed => ?_, ?_⟩
  · rw [sched]
    exact (inv.spawn i).frame live slots fds status
  · rw [live] at below
    obtain ⟨manned, wired, awake⟩ := inv.entry k below
    refine ⟨(Pool.manned_congr slots).mpr manned, ?_, status k awake⟩
    unfold ThreadInfo.Wired
    rw [(fds k).1, (fds k).2]
    exact wired
  · rw [live, sched]
    rw [slots] at placed
    exact inv.placed l k placed
  · intro l u seen
    rw [workers] at seen
    rw [(fds _).1]
    by_cases same : l = j
    · subst l
      rw [update_self] at seen
      cases seen
      rw [slot]
      exact polled
    · rw [update_of_ne same] at seen
      exact inv.polled l u seen

/-- The status of an entry is all that a worker changes of it. -/
theorem setThread_fds (p : Pool) (id : Nat) (status : ThreadStatus) (k : Nat) :
    ((p.setThread id { p.threads id with status := status }).threads k).childFd = (p.threads k).childFd ∧
      ((p.setThread id { p.threads id with status := status }).threads k).parentFd = (p.threads k).parentFd := by
  unfold Pool.setThread
  dsimp only
  by_cases same : k = id
  · subst k
    rw [update_self]
    exact ⟨rfl, rfl⟩
  · rw [update_of_ne same]
    exact ⟨rfl, rfl⟩

theorem setThread_started (p : Pool) (id : Nat) {status : ThreadStatus} (started : status ≠ .none) (k : Nat)
    (before : (p.threads k).status ≠ .none) :
    ((p.setThread id { p.threads id with status := status }).threads k).status ≠ .none := by
  unfold Pool.setThread
  dsimp only
  by_cases same : k = id
  · subst k
    rw [update_self]
    exact started
  · rw [update_of_ne same]
    exact before

theorem TableInv.workerStep (inv : TableInv cfg p) {j : Nat} {ok : Bool} (taken : p.workerStep cfg j ok = some p') :
    TableInv cfg p' := by
  unfold Pool.workerStep at taken
  split at taken
  · cases taken
  · rename_i w found
    have polled := inv.polled j w found
    have same (k : Nat) : (p.threads k).childFd = (p.threads k).childFd ∧ (p.threads k).parentFd = (p.threads k).parentFd :=
      ⟨rfl, rfl⟩
    have keep (k : Nat) (started : (p.threads k).status ≠ .none) : (p.threads k).status ≠ .none := started
    cases pc : w.pc <;> simp only [pc] at taken <;> rw [pc] at polled
    case start =>
      cases taken
      exact inv.worker_move found rfl rfl rfl rfl rfl same keep (Or.inr rfl)
    case sleepSet =>
      cases taken
      exact inv.worker_move found rfl rfl rfl rfl rfl (setThread_fds p _ _) (setThread_started p _ nofun)
        (Or.inr (polled.resolve_left nofun))
    case wakeSet =>
      cases taken
      exact inv.worker_move found rfl rfl rfl rfl rfl (setThread_fds p _ _) (setThread_started p _ nofun)
        (Or.inr (polled.resolve_left nofun))
    case poll =>
      split at taken
      · split at taken <;> cases taken
        exact inv.worker_move found rfl rfl rfl rfl rfl same keep (Or.inr (polled.resolve_left nofun))
      · cases taken
        exact inv.worker_move found rfl rfl rfl rfl rfl same keep (Or.inr (polled.resolve_left nofun))
    all_goals first
      | (cases taken
         exact inv.worker_move found rfl rfl rfl rfl rfl same keep (Or.inr (polled.resolve_left nofun)))
      | (split at taken <;> cases taken <;> first
          | exact inv.worker_move found rfl rfl rfl rfl rfl same keep (Or.inr (polled.resolve_left nofun))
          | exact inv.fail)

theorem TableInv.step {label : PoolLabel} (inv : TableInv cfg p) (bounded : Bounded p)
    (small : (setDefaults cfg).maxThreads < 256) (alone : FillsAlone p label) (taken : poolStep cfg p label = some p') :
    TableInv cfg p' := by
  unfold poolStep at taken
  split at taken
  · cases taken
  · cases label with
    | call i task =>
      dsimp only at taken
      split at taken
      · rename_i res pc
        split at taken <;> cases taken
        · exact inv
        · exact inv.sched_outside (by rw [pc]; rfl) rfl rfl rfl rfl rfl inv.pipe trivial
      · cases taken
    | sched i result => exact inv.schedStep bounded small alone taken
    | worker j result => exact inv.workerStep taken

theorem TableInv.initial (init : threadpoolInit cfg = some start) : TableInv cfg start := by
  unfold threadpoolInit at init
  dsimp only at init
  split at init
  · cases init
  · split at init <;> cases init
    exact ⟨Nat.zero_le _, nofun, nofun, fun _ => trivial, nofun, nofun, nofun⟩

end Table

/-- The entries of `p` that count are entries of `p'` that count, with the same pipes. -/
def KeepsEntries (p p' : Pool) : Prop :=
  p.liveThreads ≤ p'.liveThreads ∧ ∀ k < p.liveThreads,
    (p'.threads k).childFd = (p.threads k).childFd ∧ (p'.threads k).parentFd = (p.threads k).parentFd

section Entries
variable {cfg : ThreadpoolConfig} {p p' : Pool}

theorem KeepsEntries.of_threads (live : p'.liveThreads = p.liveThreads) (threads : p'.threads = p.threads) :
    KeepsEntries p p' := by
  refine ⟨Nat.le_of_eq live.symm, fun k _ => ?_⟩
  rw [threads]
  exact ⟨rfl, rfl⟩

theorem KeepsEntries.trans {q : Pool} (first : KeepsEntries p p') (second : KeepsEntries p' q) : KeepsEntries p q := by
  refine ⟨Nat.le_trans first.1 second.1, fun k below => ?_⟩
  obtain ⟨child, parent⟩ := first.2 k below
  obtain ⟨child', parent'⟩ := second.2 k (Nat.lt_of_lt_of_le below first.1)
  exact ⟨child'.trans child, parent'.trans parent⟩

theorem KeepsEntries.setThread (p : Pool) (ti : ThreadInfo) : KeepsEntries p (p.setThread p.liveThreads ti) := by
  refine ⟨Nat.le_refl _, fun k below => ?_⟩
  rw [show (p.setThread p.liveThreads ti).threads k = p.threads k from update_of_ne (Nat.ne_of_lt below) _ _]
  exact ⟨rfl, rfl⟩

theorem TableInv.schedStep_keeps (inv : TableInv cfg p) (small : (setDefaults cfg).maxThreads < 256) {i : Nat} {ok : Bool}
    (alone : FillsAlone p (.sched i ok)) (taken : p.schedStep cfg i ok = some p') : KeepsEntries p p' := by
  have facts := inv.spawn i
  cases pc : p.sched i <;> simp only [Pool.schedStep, pc] at taken <;> rw [pc] at facts
  case idle res => cases taken
  case spawnChildFd back id fd =>
    cases taken
    obtain ⟨rfl, _⟩ := alone back id fd pc
    exact KeepsEntries.setThread p _
  case spawnParentFd back id fd =>
    cases taken
    obtain ⟨rfl, _⟩ := facts
    exact KeepsEntries.setThread p _
  case spawnAwake back id =>
    cases taken
    obtain ⟨rfl, _⟩ := facts
    exact KeepsEntries.setThread p _
  case adjCas back v =>
    obtain ⟨rfl, room, _⟩ := facts
    rw [if_pos rfl] at taken
    cases taken
    refine ⟨?_, fun k _ => ⟨rfl, rfl⟩⟩
    change p.liveThreads ≤ (p.liveThreads + 1) % 256
    omega
  all_goals first
    | (cases taken; exact .of_threads rfl rfl)
    | (split at taken <;> cases taken <;> exact .of_threads rfl rfl)

theorem workerStep_keeps {j : Nat} {ok : Bool} (taken : p.workerStep cfg j ok = some p') : KeepsEntries p p' := by
  unfold Pool.workerStep at taken
  split at taken
  · cases taken
  · rename_i w found
    cases pc : w.pc <;> simp only [pc] at taken
    case sleepSet =>
      cases taken
      exact ⟨Nat.le_refl _, fun k _ => setThread_fds p _ _ k⟩
    case wakeSet =>
      cases taken
      exact ⟨Nat.le_refl _, fun k _ => setThread_fds p _ _ k⟩
    case poll =>
      split at taken
      · split at taken <;> cases taken
        exact .of_threads rfl rfl
      · cases taken
        exact .of_threads rfl rfl
    all_goals first
      | (cases taken; exact .of_threads rfl rfl)
      | (split at taken <;> cases taken <;> exact .of_threads rfl rfl)

theorem TableInv.step_keeps {label : PoolLabel} (inv : TableInv cfg p) (small : (setDefaults cfg).maxThreads < 256)
    (alone : FillsAlone p label) (taken : poolStep cfg p label = some p') : KeepsEntries p p' := by
  unfold poolStep at taken
  split at taken
  · cases taken
  · cases label with
    | call i task =>
      dsimp only at taken
      split at taken
      · split at taken <;> cases taken <;> exact .of_threads rfl rfl
      · cases taken
    | sched i result => exact inv.schedStep_keeps small alone taken
    | worker j result => exact workerStep_keeps taken

end Entries

section Runs
variable {cfg : ThreadpoolConfig} {start p p' : Pool}

theorem maxThreads_small (byte : cfg.maxThreads < 256) : (setDefaults cfg).maxThreads < 256 := by
  unfold setDefaults
  dsimp only
  split
  · decide
  · exact byte

theorem table_invariant (byte : cfg.maxThreads < 256) (bounded : Bounded start) (table : TableInv cfg start)
    (reach : Reach (poolStep cfg) start FillsAlone p) : Bounded p ∧ TableInv cfg p ∧ KeepsEntries start p := by
  have small := maxThreads_small byte
  induction reach with
  | start => exact ⟨bounded, table, .of_threads rfl rfl⟩
  | next _ alone taken ih =>
    obtain ⟨bounded, inv, keeps⟩ := ih
    exact ⟨bounded.step taken, inv.step bounded small alone taken, keeps.trans (inv.step_keeps small alone taken)⟩

/-- In every state of a run in which no thread begins to fill an entry that another one is filling or has filled, the
workers are within `max_threads` and every entry that counts has one worker and both ends of its pipe, for good. -/
theorem worker_table_sound (byte : cfg.maxThreads < 256) (init : threadpoolInit cfg = some start)
    (reach : Reach (poolStep cfg) start FillsAlone p) :
    p.liveThreads ≤ (setDefaults cfg).maxThreads ∧
      (∀ k < p.liveThreads, (∃! j, p.slotOf j = some k) ∧ (p.threads k).childFd = (p.threads k).parentFd ∧
        (p.threads k).childFd ≠ 0 ∧ (p.threads k).status ≠ .none) ∧
      ∀ p', Reach (poolStep cfg) p FillsAlone p' → ∀ k < p.liveThreads,
        (p'.threads k).childFd = (p.threads k).childFd ∧ (p'.threads k).parentFd = (p.threads k).parentFd := by
  obtain ⟨bounded, inv, _⟩ := table_invariant byte (.initial init) (.initial init) reach
  refine ⟨inv.live, fun k below => ?_, fun p' later => (table_invariant byte bounded inv later).2.2.2⟩
  obtain ⟨manned, wired, started⟩ := inv.entry k below
  exact ⟨manned, wired.1, wired.2, started⟩

/-- The entry that a thread is about to fill. -/
def SchedPc.chosen : SchedPc → Option Nat
  | .spawnChildFd _ id _ => some id
  | _ => none

/-- Steps of the workers and of the callers below `m`, which fill the first free entry, one at a time. -/
def FewCallers (m : Nat) (p : Pool) (label : PoolLabel) : Prop :=
  ∀ i ∈ label.caller, i < m ∧ ∀ id ∈ (p.sched i).chosen, id = p.liveThreads ∧ ∀ k < m, k ≠ i → (p.sched k).filling = false

instance (m : Nat) (p : Pool) (label : PoolLabel) : Decidable (FewCallers m p label) :=
  inferInstanceAs (Decidable (∀ i ∈ label.caller, _ ∧ _))

/-- The callers from `m` on fill nothing. -/
theorem fillsAlone_of_fewCallers {m : Nat} (init : threadpoolInit cfg = some start)
    (reach : Reach (poolStep cfg) start (FewCallers m) p) : Reach (poolStep cfg) start FillsAlone p := by
  have both : (∀ k, m ≤ k → p.sched k = .idle none) ∧ Reach (poolStep cfg) start FillsAlone p := by
    induction reach with
    | start =>
      refine ⟨fun k _ => ?_, .start⟩
      unfold threadpoolInit at init
      dsimp only at init
      split at init
      · cases init
      · split at init <;> cases init
        rfl
    | @next p p' label _ few taken ih =>
      obtain ⟨idle, reach⟩ := ih
      refine ⟨fun k high => (poolStep_sched_other taken fun own => ?_).trans (idle k high), reach.next ?_ taken⟩
      · have low := (few k own).1
        omega
      · cases label with
        | sched i result =>
          intro back id fd here
          obtain ⟨free, alone⟩ := (few i rfl).2 id (by rw [here]; rfl)
          refine ⟨free, fun k apart => ?_⟩
          rcases Nat.lt_or_ge k m with low | high
          · exact alone k low apart
          · rw [idle k high]
            rfl
        | _ => trivial
  exact both.2

/-- Two callers schedule a task each, one after the other, and each starts a worker. -/
theorem worker_table_sound_second : ∃ start p, threadpoolInit ⟨3, 4⟩ = some start ∧
    Reach (poolStep ⟨3, 4⟩) start FillsAlone p ∧ p.liveThreads = 2 ∧ (∃! j, p.slotOf j = some 0) ∧ (∃! j, p.slotOf j = some 1) ∧
      (p.threads 1).childFd = (p.threads 1).parentFd := by
  have trace : poolTrace ⟨3, 4⟩ (FewCallers 2) twoTasks Pool.liveThreads = some 2 := by decide +kernel
  obtain ⟨start, p, init, few, live⟩ := poolTrace_reach trace
  have reach := fillsAlone_of_fewCallers init few
  obtain ⟨_, entries, _⟩ := worker_table_sound (by decide) init reach
  obtain ⟨manned, wired, _⟩ := entries 1 (by omega)
  exact ⟨start, p, init, reach, live, (entries 0 (by omega)).1, manned, wired⟩

/-- Callers 0 and 1 both commit, find no worker, and read `live_threads` before either has counted a worker. -/
def doubleSpawn : List PoolLabel :=
  callSteps 0 ⟨10, 0, 20⟩ 20 ++ callSteps 1 ⟨11, 0, 21⟩ 20 ++ List.replicate 7 (.sched 0 true) ++
    List.replicate 7 (.sched 1 true)

/-- Both fill entry 0, and two workers are counted where `max_threads` is 1: the first one has lost its entry, and the
second entry that counts was never filled. -/
theorem worker_table_overrun : ∃ start p, threadpoolInit ⟨3, 1⟩ = some start ∧
    Reach (poolStep ⟨3, 1⟩) start (fun _ _ => True) p ∧ (setDefaults ⟨3, 1⟩).maxThreads < p.liveThreads ∧
      p.slotOf 0 = some 0 ∧ p.slotOf 1 = some 0 ∧ (p.threads 0).childFd = 2 ∧
      p.threads 1 = ⟨0, 0, .none⟩ := by
  have trace : poolTrace ⟨3, 1⟩ (fun _ _ => True) doubleSpawn (fun p => decide ((setDefaults ⟨3, 1⟩).maxThreads < p.liveThreads ∧
      p.slotOf 0 = some 0 ∧ p.slotOf 1 = some 0 ∧ (p.threads 0).childFd = 2 ∧ p.threads 1 = ⟨0, 0, .none⟩)) = some true := by
    decide +kernel
  obtain ⟨start, p, init, reach, seen⟩ := poolTrace_reach trace
  exact ⟨start, p, init, reach, of_decide_eq_true seen⟩

end Runs

end Kinetic
