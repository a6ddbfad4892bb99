import Kinetic.Threadpool.Drain

namespace Kinetic
open Ring Function Transition

/-- Nobody is in `Threadpool_Schedule`. -/
def ShutPool.Quiet (s : ShutPool) : Prop := ∀ i, ∃ res, s.pool.sched i = .idle res

/-- Nobody is in `Threadpool_Shutdown`. -/
def ShutPool.Returned (s : ShutPool) : Prop := ∀ i, ∃ res, s.shutters i = .idle res

/-- Once a `Threadpool_Shutdown` has set its flag it goes on only while nobody is in `Threadpool_Schedule`, and it claims only
an index that has been committed, which its test of the two heads no longer says when it loads `task_request_head` again. A
worker does not start to claim while nothing has been committed, and neither the heads nor `live_threads` wrap. -/
def OrderlyShutdown (s : ShutPool) (label : ShutLabel) : Prop :=
  NotWrapping s.pool ∧
    match label with
    | .sched i ok => CountsOn s.pool (.sched i ok)
    | .worker j ok => s.stages j = .tested → CommittedClaim s.pool (.worker j ok)
    | .shut i => (s.shutters i ≠ .setFlag → s.Quiet) ∧
        ∀ rh, s.shutters i = .drainCas rh → s.pool.ring.requestHead = rh → rh < s.pool.ring.commitHead
    | _ => True

/-- The thread has done nothing in `Threadpool_Shutdown` yet but set the flag. -/
def ShutdownPc.harmless : ShutdownPc → Bool
  | .idle _ => true
  | .setFlag => true
  | .notify false 0 0 => true
  | _ => false

/-- Nothing has come of a shutdown yet, apart from the flag. -/
structure Calm (s : ShutPool) : Prop where
  ended : ∀ k, s.ended k = .live
  unbroken : ∀ fd, s.closed fd = false ∧ s.childClosed fd = false
  stages : ∀ j, s.stages j = .running ∨ s.stages j = .tested ∧ ∃ w, s.pool.workers j = some w ∧ w.pc.holding = none
  shutters : ∀ i, (s.shutters i).harmless = true
  flag : ∀ i, s.shutters i = .notify false 0 0 → s.shuttingDown = true
  handles : ∀ k j, s.handle k = some j → s.pool.slotOf j = some k
  halted : s.halted = false

/-- A calm pool, with the invariants of the pool itself. -/
structure CalmInv (cfg : ThreadpoolConfig) (fits : (setDefaults cfg).taskRingbufSize2 ≤ threadpoolMaxRingbufSize2)
    (s : ShutPool) : Prop where
  calm : Calm s
  inv : ∃ phase, PoolInv cfg fits s.pool phase
  progress : Progress cfg s.pool
  crewed : Crewed s.pool
  bounded : Bounded s.pool

section Switch
variable {cfg : ThreadpoolConfig} {fits : (setDefaults cfg).taskRingbufSize2 ≤ threadpoolMaxRingbufSize2}
variable {p : Pool} {s : ShutPool} {phase : Nat → Phase Nat Nat} {j : Nat} {w : Worker}

theorem PoolInv.copyFacts (inv : PoolInv cfg fits p phase) (found : p.workers j = some w) :
    CopyFacts cfg p.ring.releaseHead p.ring w.pc := by
  have facts := inv.worker j w found
  have intact (rh : Nat) (claimed : phase rh = .claimed j) : p.ring.Intact cfg p.ring.releaseHead rh := by
    refine ⟨(inv.valid.claimed_bounds claimed).1, ?_⟩
    rw [TaskRing.at_eq]
    exact (inv.valid.claimed_holds claimed).2
  have same (rh : Nat) (claimed : phase rh = .claimed j) (t : ThreadpoolTask) (stored : p.ring.reserved[rh]? = some t) :
      (p.ring.at cfg rh).toThreadpoolTask = t := Option.some.inj ((intact rh claimed).2.symm.trans stored)
  cases pc : w.pc <;> rw [pc] at facts
  case claimRequest ch => exact facts
  case claimCas rh => exact facts
  case assertMark rh => exact intact rh facts
  case copyTask rh => exact intact rh facts
  case copyCleanup rh task =>
    obtain ⟨claimed, t, stored, rfl⟩ := facts
    exact ⟨intact rh claimed, congrArg ThreadpoolTask.task (same rh claimed t stored)⟩
  case copyUdata rh task cleanup =>
    obtain ⟨claimed, t, stored, rfl, rfl⟩ := facts
    exact ⟨intact rh claimed, congrArg ThreadpoolTask.task (same rh claimed t stored),
      congrArg ThreadpoolTask.cleanup (same rh claimed t stored)⟩
  case releaseMark rh task => exact facts.2
  case loadRelease rh task => exact facts.1
  case loadReleased rh task relh => exact facts.1
  case casRelease rh task relh => exact facts.1
  case assertReleased rh task relh => exact facts.1
  case run rh task => exact facts
  all_goals trivial

theorem ShutdownPc.harmless_cases {pc : ShutdownPc} (harmless : pc.harmless = true) :
    (∃ res, pc = .idle res) ∨ pc = .setFlag ∨ pc = .notify false 0 0 := by
  unfold ShutdownPc.harmless at harmless
  split at harmless
  · exact Or.inl ⟨_, rfl⟩
  · exact Or.inr (Or.inl rfl)
  · exact Or.inr (Or.inr rfl)
  · cases harmless

/-- A calm pool that is shutting down starts to drain once nobody is in `Threadpool_Schedule`. -/
theorem CalmInv.draining (calm : CalmInv cfg fits s) (flag : s.shuttingDown = true) (quiet : s.Quiet) :
    Draining cfg s.pool.ring.releaseHead s := by
  obtain ⟨phase, inv⟩ := calm.inv
  obtain ⟨release, request, commit, room⟩ := inv.heads_ordered
  have complete := calm.progress.complete commit quiet
  refine ⟨flag, quiet, complete, inv.reserved, request, by omega, fun r above below => ?_, fun j w found => ?_, fun i => ?_,
    calm.crewed.complete quiet, calm.bounded, calm.calm.handles, fun k ended => ?_, fun stopped => ?_⟩
  · refine ⟨Nat.le_trans release above, ?_⟩
    rw [TaskRing.at_eq]
    exact (inv.valid.committed_holds above below).2
  · refine ⟨inv.copyFacts found, ?_⟩
    rcases calm.calm.stages j with running | ⟨_, v, seen, free⟩
    · exact Or.inl running
    · cases found.symm.trans seen
      exact Or.inr free
  · have harmless := calm.calm.shutters i
    cases pc : s.shutters i <;> rw [pc] at harmless
    case idle res => trivial
    case setFlag => trivial
    case notify last k done =>
      rcases ShutdownPc.harmless_cases harmless with ⟨_, same⟩ | same | same <;> cases same
      exact ⟨by nofun, .start s⟩
    all_goals cases harmless
  · rw [calm.calm.ended k] at ended
    cases ended
  · rw [calm.calm.halted] at stopped
    cases stopped

end Switch

/-- What a step of a thread in `Threadpool_Schedule` leaves alone. -/
structure SchedFrame (p p' : Pool) : Prop where
  claims : p'.claims = p.claims
  executed : p'.executed = p.executed
  request : p'.ring.requestHead = p.ring.requestHead
  reserved : ∀ r < p.ring.reserved.length, p'.ring.reserved[r]? = p.ring.reserved[r]?
  workers : ∀ j, p'.workers j = p.workers j ∨ p.workers j = none ∧ ∃ id, p'.workers j = some ⟨id, 0, .start⟩

section Calm
variable {cfg : ThreadpoolConfig} {fits : (setDefaults cfg).taskRingbufSize2 ≤ threadpoolMaxRingbufSize2}
variable {p p' : Pool} {s s' : ShutPool} {i j : Nat}

theorem schedStep_frame {ok : Bool} (bounded : Bounded p) (taken : p.schedStep cfg i ok = some p') : SchedFrame p p' := by
  cases pc : p.sched i <;> simp only [Pool.schedStep, pc] at taken
  case idle res => cases taken
  case casReserve task wh rh =>
    split at taken <;> cases taken
    · exact ⟨rfl, rfl, rfl, fun r below => List.getElem?_append_left below, fun _ => Or.inl rfl⟩
    · exact ⟨rfl, rfl, rfl, fun _ _ => rfl, fun _ => Or.inl rfl⟩
  case spawnCreate back id =>
    split at taken <;> cases taken
    · refine ⟨rfl, rfl, rfl, fun _ _ => rfl, fun j => ?_⟩
      by_cases new : j = p.created
      · subst j
        refine Or.inr ⟨?_, id, update_self ..⟩
        cases found : p.workers p.created with
        | none => rfl
        | some w => exact absurd (bounded _ w found) (Nat.lt_irrefl _)
      · exact Or.inl (update_of_ne new _ _)
    · exact ⟨rfl, rfl, rfl, fun _ _ => rfl, fun _ => Or.inl rfl⟩
  all_goals first
    | (cases taken; exact ⟨rfl, rfl, rfl, fun _ _ => rfl, fun _ => Or.inl rfl⟩)
    | (split at taken <;> cases taken <;> exact ⟨rfl, rfl, rfl, fun _ _ => rfl, fun _ => Or.inl rfl⟩)

theorem SchedFrame.slotOf {k : Nat} (frame : SchedFrame p p') (slot : p.slotOf j = some k) : p'.slotOf j = some k := by
  rcases frame.workers j with same | ⟨none, _⟩
  · unfold Pool.slotOf at slot ⊢
    rw [same]
    exact slot
  · unfold Pool.slotOf at slot
    rw [none] at slot
    cases slot

theorem SchedFrame.accounts (frame : SchedFrame s.pool s'.pool) (accounts : Accounts s)
    (within : s.pool.ring.requestHead ≤ s.pool.ring.reserved.length) (shutters : s'.shutters = s.shutters)
    (drains : s'.drains = s.drains) (cleaned : s'.cleaned = s.cleaned) : Accounts s' := by
  refine accounts.keep frame.claims drains frame.executed cleaned ?_ frame.request
    fun r below => frame.reserved r (Nat.lt_of_lt_of_le below within)
  funext c
  cases c with
  | worker j =>
    change (s'.pool.workers j).bind _ = (s.pool.workers j).bind _
    rcases frame.workers j with same | ⟨none, id, new⟩
    · rw [same]
    · rw [none, new]
      rfl
  | shutter k => exact congrArg ShutdownPc.holding (congrFun shutters k)

/-- The pool stays calm while only the pool and the `handle` fields change. -/
theorem Calm.sched_step (calm : Calm s) (frame : SchedFrame s.pool s'.pool) (ended : s'.ended = s.ended)
    (closed : s'.closed = s.closed) (childClosed : s'.childClosed = s.childClosed) (stages : s'.stages = s.stages)
    (shutters : s'.shutters = s.shutters) (flag : s'.shuttingDown = s.shuttingDown) (halted : s'.halted = s.halted)
    (handles : ∀ k j, s'.handle k = some j → s'.pool.slotOf j = some k) : Calm s' := by
  refine ⟨by rw [ended]; exact calm.ended, by rw [closed, childClosed]; exact calm.unbroken, fun j => ?_,
    by rw [shutters]; exact calm.shutters, by rw [shutters, flag]; exact calm.flag, handles, halted.trans calm.halted⟩
  rw [stages]
  rcases calm.stages j with running | ⟨tested, w, found, free⟩
  · exact Or.inl running
  · rcases frame.workers j with same | ⟨none, _⟩
    · exact Or.inr ⟨tested, w, same.trans found, free⟩
    · rw [none] at found
      cases found

/-- In a calm pool a thread in `Threadpool_Schedule` takes the step it takes in a pool that is never shut down. -/
theorem Calm.schedStep {ok : Bool} (calm : Calm s) (bounded : Bounded s.pool) (taken : s.schedStep cfg i ok = some s') :
    Calm s' ∧ s.pool.schedStep cfg i ok = some s'.pool ∧ s'.shutters = s.shutters ∧ s'.drains = s.drains ∧
      s'.cleaned = s.cleaned := by
  have plain (s' : ShutPool) (taken : (s.pool.schedStep cfg i ok).map (fun p => { s with pool := p }) = some s') :
      Calm s' ∧ s.pool.schedStep cfg i ok = some s'.pool ∧ s'.shutters = s.shutters ∧ s'.drains = s.drains ∧
        s'.cleaned = s.cleaned := by
    obtain ⟨p', base, rfl⟩ := Option.map_eq_some_iff.mp taken
    have frame := schedStep_frame bounded base
    exact ⟨calm.sched_step frame rfl rfl rfl rfl rfl rfl rfl fun k j named => frame.slotOf (calm.handles k j named), base, rfl,
      rfl, rfl⟩
  unfold ShutPool.schedStep at taken
  dsimp only at taken
  split at taken
  · rw [if_pos (calm.ended _)] at taken
    exact plain s' taken
  · rename_i back k _
    have whole : s.broken (s.pool.threads k).parentFd = false := by
      unfold ShutPool.broken
      rw [(calm.unbroken _).1, (calm.unbroken _).2]
      rfl
    rw [whole] at taken
    exact plain s' taken
  · rename_i back id here
    split at taken
    · rename_i created
      rw [Option.map_map] at taken
      obtain ⟨p', base, rfl⟩ := Option.map_eq_some_iff.mp taken
      have frame := schedStep_frame bounded base
      refine ⟨calm.sched_step frame rfl rfl rfl rfl rfl rfl rfl fun k j named => ?_, base, rfl, rfl, rfl⟩
      change update s.handle id (some s.pool.created) k = some j at named
      by_cases own : k = id
      · subst own
        rw [update_self] at named
        cases named
        simp only [Pool.schedStep, here, created, if_true] at base
        cases base
        change Option.map Worker.slot (update s.pool.workers s.pool.created _ s.pool.created) = some k
        rw [update_self]
        rfl
      · exact frame.slotOf (calm.handles k j ((update_of_ne own _ _).symm.trans named))
    · exact plain s' taken
  · rw [Option.map_map] at taken
    obtain ⟨p', base, rfl⟩ := Option.map_eq_some_iff.mp taken
    have frame := schedStep_frame bounded base
    refine ⟨calm.sched_step frame ?_ rfl rfl rfl rfl rfl rfl fun k j named => frame.slotOf (calm.handles k j named), base, rfl,
      rfl, rfl⟩
    funext k
    change update s.ended _ EndStatus.live k = s.ended k
    rw [update_apply, calm.ended k, ite_self]
  · exact plain s' taken

/-- The pool stays calm while a worker takes a step of its own. -/
theorem Calm.worker_step {w : Worker} (calm : Calm s) (found : s.pool.workers j = some w)
    (move : WorkerMove cfg s.pool j w s'.pool) (ended : s'.ended = s.ended) (closed : s'.closed = s.closed)
    (childClosed : s'.childClosed = s.childClosed) (stages : s'.stages = update s.stages j .running)
    (shutters : s'.shutters = s.shutters) (flag : s'.shuttingDown = s.shuttingDown) (halted : s'.halted = s.halted)
    (handle : s'.handle = s.handle) : Calm s' := by
  obtain ⟨v, workers, slot⟩ := move.workers found
  refine ⟨by rw [ended]; exact calm.ended, by rw [closed, childClosed]; exact calm.unbroken, fun k => ?_,
    by rw [shutters]; exact calm.shutters, by rw [shutters, flag]; exact calm.flag, fun k m named => ?_,
    halted.trans calm.halted⟩
  · rw [stages, workers]
    by_cases same : k = j
    · subst k
      exact Or.inl (update_self ..)
    · rw [update_of_ne same, update_of_ne same]
      exact calm.stages k
  · rw [handle] at named
    rw [slotOf_update found workers slot]
    exact calm.handles k m named

theorem Calm.test {w : Worker} (calm : Calm s) (found : s.pool.workers j = some w) (free : w.pc.holding = none) :
    Calm (s.setStage j .tested) := by
  refine ⟨calm.ended, calm.unbroken, fun k => ?_, calm.shutters, calm.flag, calm.handles, calm.halted⟩
  by_cases same : k = j
  · subst k
    exact Or.inr ⟨update_self .., w, found, free⟩
  · change update s.stages j .tested k = _ ∨ update s.stages j .tested k = _ ∧ _
    rw [update_of_ne same]
    exact calm.stages k

/-- In a calm pool a worker takes the step it takes in a pool that is never shut down, or
tests its status on the way. -/
theorem Calm.workerStep {ok : Bool} (calm : Calm s) (small : s.pool.ring.commitHead < sizeRange)
    (nonzero : ∀ w, s.pool.workers j = some w → s.stages j = .tested → w.pc = .claimCommit → s.pool.ring.commitHead ≠ 0)
    (taken : s.workerStep cfg j ok = some s') :
    ∃ w, s.pool.workers j = some w ∧ WorkerMove cfg s.pool j w s'.pool ∧ Calm s' ∧
      (s'.pool = s.pool ∨ s.pool.workerStep cfg j ok = some s'.pool ∧ (w.pc = .claimCommit → s.pool.ring.commitHead ≠ 0)) ∧
      s'.shutters = s.shutters ∧ s'.drains = s.drains ∧ s'.cleaned = s.cleaned := by
  unfold ShutPool.workerStep at taken
  split at taken
  · cases taken
  · rename_i w found
    refine ⟨w, found, ?_⟩
    have alive : ∀ k, update s.ended k EndStatus.live = s.ended := by
      intro k
      funext m
      rw [update_apply, calm.ended m, ite_self]
    dsimp only at taken
    split at taken
    · cases taken
    · rename_i leaving
      rcases calm.stages j with running | ⟨tested, _⟩ <;> simp_all
    · rename_i hangup
      rcases calm.stages j with running | ⟨tested, _⟩ <;> simp_all
    · rename_i tested
      rw [Option.map_map] at taken
      obtain ⟨p', base, rfl⟩ := Option.map_eq_some_iff.mp taken
      have move := workerStep_moves found small (nonzero w found tested) base
      exact ⟨move, calm.worker_step found move rfl rfl rfl rfl rfl rfl rfl rfl, Or.inr ⟨base, nonzero w found tested⟩, rfl, rfl,
        rfl⟩
    · rename_i running
      have stays : update s.stages j .running = s.stages := by rw [← running, update_eq_self]
      have plain (other : w.pc ≠ .claimCommit) (s' : ShutPool)
          (taken : (s.pool.workerStep cfg j ok).map (fun p => { s with pool := p }) = some s') :
          WorkerMove cfg s.pool j w s'.pool ∧ Calm s' ∧ (s'.pool = s.pool ∨ s.pool.workerStep cfg j ok = some s'.pool ∧
            (w.pc = .claimCommit → s.pool.ring.commitHead ≠ 0)) ∧ s'.shutters = s.shutters ∧ s'.drains = s.drains ∧
            s'.cleaned = s.cleaned := by
        obtain ⟨p', base, rfl⟩ := Option.map_eq_some_iff.mp taken
        have move := workerStep_moves found small (fun here => absurd here other) base
        exact ⟨move, calm.worker_step found move rfl rfl rfl stays.symm rfl rfl rfl rfl,
          Or.inr ⟨base, fun here => absurd here other⟩, rfl, rfl, rfl⟩
      have status (other : w.pc ≠ .claimCommit) (s' : ShutPool)
          (taken : (s.pool.workerStep cfg j ok).map (fun p => ({ s with pool := p }.setEnded w.slot .live)) = some s') :
          WorkerMove cfg s.pool j w s'.pool ∧ Calm s' ∧ (s'.pool = s.pool ∨ s.pool.workerStep cfg j ok = some s'.pool ∧
            (w.pc = .claimCommit → s.pool.ring.commitHead ≠ 0)) ∧ s'.shutters = s.shutters ∧ s'.drains = s.drains ∧
            s'.cleaned = s.cleaned := by
        refine plain other s' ?_
        obtain ⟨p', base, rfl⟩ := Option.map_eq_some_iff.mp taken
        rw [base]
        unfold ShutPool.setEnded
        dsimp only [Option.map]
        rw [alive]
      have whole (fd : Nat) : s.broken fd = false := by
        unfold ShutPool.broken
        rw [(calm.unbroken fd).1, (calm.unbroken fd).2]
        rfl
      cases pc : w.pc <;> simp only [pc, Option.map_map, calm.ended, whole, (calm.unbroken _).1, (calm.unbroken _).2, if_true,
        Bool.and_false, Bool.false_and, Bool.false_eq_true, if_false] at taken plain status
      case testRequest =>
        cases taken
        exact ⟨.stay found, calm.test found (by rw [pc]; rfl), Or.inl rfl, rfl, rfl, rfl⟩
      case claimCommit =>
        cases taken
        exact ⟨.stay found, calm.test found (by rw [pc]; rfl), Or.inl rfl, rfl, rfl, rfl⟩
      case sleepSet => exact status (by nofun) s' taken
      case wakeSet => exact status (by nofun) s' taken
      all_goals exact plain (by nofun) s' taken

end Calm

/-- The accounts balance, before anything has come of a shutdown or while the pool is drained. -/
def Accounted (cfg : ThreadpoolConfig) (fits : (setDefaults cfg).taskRingbufSize2 ≤ threadpoolMaxRingbufSize2) (s : ShutPool) :
    Prop :=
  CalmInv cfg fits s ∧ Accounts s ∨ ∃ low, Audited cfg low s

section Runs
variable {cfg : ThreadpoolConfig} {fits : (setDefaults cfg).taskRingbufSize2 ≤ threadpoolMaxRingbufSize2}
variable {start : Pool} {s s' : ShutPool} {label : ShutLabel} {low : Nat}

theorem CalmInv.next (calm : CalmInv cfg fits s) (still : Calm s') (wrap : NotWrapping s.pool) (base : PoolLabel)
    (committed : CommittedClaim s.pool base) (counts : CountsOn s.pool base)
    (taken : poolStep cfg s.pool base = some s'.pool) : CalmInv cfg fits s' := by
  obtain ⟨phase, inv⟩ := calm.inv
  exact ⟨still, inv.step ⟨wrap, committed⟩ taken, calm.progress.step inv ⟨wrap, committed⟩ taken,
    calm.crewed.step counts taken, calm.bounded.step taken⟩

theorem CalmInv.same (calm : CalmInv cfg fits s) (still : Calm s') (pool : s'.pool = s.pool) : CalmInv cfg fits s' := by
  refine ⟨still, ?_, ?_, ?_, ?_⟩ <;> rw [pool]
  · exact calm.inv
  · exact calm.progress
  · exact calm.crewed
  · exact calm.bounded

/-- A thread that is not past setting the flag takes a step in `Threadpool_Shutdown`. -/
theorem Calm.goto {i : Nat} {pc : ShutdownPc} {flag : Bool} (calm : Calm s) (harmless : pc.harmless = true)
    (kept : s.shuttingDown = true → flag = true) (set : pc = .notify false 0 0 → flag = true) :
    Calm ({ s with shuttingDown := flag }.goto i pc) := by
  refine ⟨calm.ended, calm.unbroken, calm.stages, fun k => ?_, fun k here => ?_, calm.handles, calm.halted⟩
  · change (update s.shutters i pc k).harmless = true
    by_cases same : k = i
    · subst k
      rw [update_self]
      exact harmless
    · rw [update_of_ne same]
      exact calm.shutters k
  · change update s.shutters i pc k = _ at here
    by_cases same : k = i
    · subst k
      rw [update_self] at here
      exact set here
    · rw [update_of_ne same] at here
      exact kept (calm.flag k here)

/-- A pool that is drained goes on being drained: `Threadpool_Schedule` returns at once. -/
theorem Audited.step (audited : Audited cfg low s) (ok : OrderlyShutdown s label) (taken : shutStep cfg s label = some s') :
    Audited cfg low s' := by
  have wrap : s.pool.ring.reserveHead + 1 < sizeRange := ok.1
  have complete := audited.1.complete
  unfold shutStep at taken
  split at taken
  · cases taken
  · cases label with
    | call i task =>
      dsimp only at taken
      split at taken
      · split at taken
        · cases taken
          exact audited
        · rw [if_pos audited.1.flag] at taken
          cases taken
          exact audited
      · cases taken
    | sched i result =>
      obtain ⟨res, idle⟩ := audited.1.quiet i
      simp only [ShutPool.schedStep, Pool.schedStep, idle] at taken
      cases taken
    | worker j result => exact audited.workerStep (by omega) (fun w found tested => ok.2 tested w found) taken
    | shutdown i =>
      dsimp only at taken
      split at taken
      · rename_i res idle
        cases taken
        exact audited.shutter_goto (by rw [idle]; rfl) trivial
      · cases taken
    | shut i => exact audited.shutdownStep ok.2.2 taken

theorem CalmInv.step (calm : CalmInv cfg fits s) (accounts : Accounts s) (ok : OrderlyShutdown s label)
    (taken : shutStep cfg s label = some s') : Accounted cfg fits s' := by
  obtain ⟨phase, inv⟩ := calm.inv
  obtain ⟨release, request, commit, _⟩ := inv.heads_ordered
  have wrap : s.pool.ring.reserveHead + 1 < sizeRange := ok.1
  have length := inv.reserved
  have running := inv.running
  simp only [shutStep, running, Bool.false_eq_true, if_false] at taken
  cases label with
  | call i task =>
    dsimp only at taken
    split at taken
    · rename_i res idle
      split at taken
      · cases taken
        exact Or.inl ⟨calm, accounts⟩
      · rename_i present
        split at taken <;> cases taken
        · exact Or.inl ⟨calm, accounts⟩
        · have base : poolStep cfg s.pool (.call i task) = some (s.pool.goto i (.loadReserve task)) := by
            simp [poolStep, running, idle, present]
          have frame : SchedFrame s.pool (s.pool.goto i (.loadReserve task)) :=
            ⟨rfl, rfl, rfl, fun _ _ => rfl, fun _ => Or.inl rfl⟩
          have still : Calm { s with pool := s.pool.goto i (.loadReserve task) } :=
            calm.calm.sched_step frame rfl rfl rfl rfl rfl rfl rfl calm.calm.handles
          exact Or.inl ⟨calm.next still ok.1 (.call i task) trivial trivial base, frame.accounts accounts (by omega) rfl rfl rfl⟩
    · cases taken
  | sched i result =>
    obtain ⟨still, base, shutters, drains, cleaned⟩ := calm.calm.schedStep calm.bounded taken
    have whole : poolStep cfg s.pool (.sched i result) = some s'.pool := by
      simp only [poolStep, running, Bool.false_eq_true, if_false]
      exact base
    exact Or.inl ⟨calm.next still ok.1 (.sched i result) trivial ok.2 whole,
      (schedStep_frame calm.bounded base).accounts accounts (by omega) shutters drains cleaned⟩
  | worker j result =>
    obtain ⟨w, found, move, still, outcome, shutters, drains, cleaned⟩ :=
      calm.calm.workerStep (by omega) (fun w found tested => ok.2 tested w found) taken
    refine Or.inl ⟨?_, accounts.worker found (inv.copyFacts found) move rfl shutters drains cleaned⟩
    rcases outcome with same | ⟨base, nonzero⟩
    · exact calm.same still same
    · have whole : poolStep cfg s.pool (.worker j result) = some s'.pool := by
        simp only [poolStep, running, Bool.false_eq_true, if_false]
        exact base
      refine calm.next still ok.1 (.worker j result) (fun v seen => ?_) trivial whole
      cases found.symm.trans seen
      exact nonzero
  | shutdown i =>
    dsimp only at taken
    split at taken
    · rename_i res idle
      cases taken
      exact Or.inl ⟨calm.same (calm.calm.goto rfl id (by rintro ⟨⟩)) rfl, accounts.goto (by rw [idle]; rfl)⟩
    · cases taken
  | shut i =>
    dsimp only at taken
    rcases (ShutdownPc.harmless_cases (calm.calm.shutters i)) with ⟨res, idle⟩ | here | here
    · simp only [ShutPool.shutdownStep, idle] at taken
      cases taken
    · simp only [ShutPool.shutdownStep, here] at taken
      cases taken
      exact Or.inl ⟨calm.same (calm.calm.goto rfl (fun _ => rfl) fun _ => rfl) rfl,
        accounts.shutter _ (by rw [here]; rfl) rfl rfl rfl rfl rfl rfl rfl rfl⟩
    · have quiet := ok.2.1 (by rw [here]; rintro ⟨⟩)
      have audited : Audited cfg s.pool.ring.releaseHead s := ⟨calm.draining (calm.calm.flag i here) quiet, accounts⟩
      exact Or.inr ⟨_, audited.shutdownStep ok.2.2 taken⟩

theorem accounted (init : threadpoolInit cfg = some start)
    (reach : Reach (shutStep cfg) (.fresh start) OrderlyShutdown s) : Accounted cfg (threadpoolInit_fits init) s := by
  induction reach with
  | start =>
    have calm : Calm (.fresh start) :=
      ⟨fun _ => rfl, fun _ => ⟨rfl, rfl⟩, fun _ => Or.inl rfl, fun _ => rfl, nofun, nofun, rfl⟩
    exact Or.inl ⟨⟨calm, ⟨_, .initial init⟩, .initial init, .initial init, .initial init⟩, .initial init⟩
  | next _ ok taken ih =>
    rcases ih with ⟨calm, accounts⟩ | ⟨low, audited⟩
    · exact calm.step accounts ok taken
    · exact Or.inr ⟨low, audited.step ok taken⟩

end Runs

end Kinetic
