import Kinetic.Threadpool.Delivery
import Kinetic.Threadpool.WakeupWorkers

namespace Kinetic
open Transition Function

/-- The value for `*pushback` that a thread in `Threadpool_Schedule` has computed, or has returned with. -/
def SchedPc.pushback : SchedPc → Option Nat
  | .idle res => res.map Prod.snd
  | .loadReserve _ => none
  | .loadRelease _ _ => none
  | .casReserve _ _ _ => none
  | .assertReserve _ _ back => some back
  | .assertRelease _ _ back _ => some back
  | .writeTask _ _ back => some back
  | .writeCleanup _ _ back => some back
  | .writeUdata _ _ back => some back
  | .writeMark _ _ back => some back
  | .loadCommit back => some back
  | .loadMark back _ => some back
  | .assertReserved back _ => some back
  | .casCommit back _ => some back
  | .assertRequest back => some back
  | .assertCommit back _ => some back
  | .notify back _ => some back
  | .notifyStatus back _ => some back
  | .notifyWrite back _ => some back
  | .spawnTest back => some back
  | .spawnId back => some back
  | .spawnPipe back _ => some back
  | .spawnChildFd back _ _ => some back
  | .spawnParentFd back _ _ => some back
  | .spawnCreate back _ => some back
  | .spawnAwake back _ => some back
  | .adjLoad back => some back
  | .adjCas back _ => some back

/-- The reserve head that a thread has loaded when it is about to load the release head. -/
def SchedPc.loaded : SchedPc → Option Nat
  | .loadRelease _ wh => some wh
  | _ => none

/-- When a thread loads the release head, that head has not passed the reserve head which the thread has loaded before. -/
def Unpassed (p : Pool) : PoolLabel → Prop
  | .sched i _ => ∀ wh ∈ (p.sched i).loaded, p.ring.releaseHead ≤ wh
  | _ => True

instance instDecidableUnpassed (p : Pool) (label : PoolLabel) : Decidable (Unpassed p label) :=
  match label with
  | .call _ _ => instDecidableTrue
  | .sched i _ => inferInstanceAs (Decidable (∀ wh ∈ (p.sched i).loaded, _))
  | .worker _ _ => instDecidableTrue

/-- What a thread has loaded lies behind the heads, and what it reports is within the ring. -/
def PushFacts (cfg : ThreadpoolConfig) (ring : TaskRing) : SchedPc → Prop
  | .loadRelease _ wh => wh ≤ ring.reserveHead
  | .casReserve _ wh rh => rh ≤ ring.releaseHead ∧ rh ≤ wh ∧ wh - rh < cfg.ringbufSize - 1 - 1
  | pc => ∀ back, pc.pushback = some back → back ≤ cfg.ringbufSize

structure PushInv (cfg : ThreadpoolConfig) (p : Pool) : Prop where
  size : 2 ≤ cfg.ringbufSize ∧ cfg.ringbufSize < sizeRange
  room : p.ring.reserveHead + 2 ≤ p.ring.releaseHead + cfg.ringbufSize
  sched : ∀ i, PushFacts cfg p.ring (p.sched i)

section Pushback
variable {cfg : ThreadpoolConfig} {start p p' : Pool} {i : Nat} {pc : SchedPc}

theorem PushFacts.later {ring ring' : TaskRing} (facts : PushFacts cfg ring pc) (reserve : ring.reserveHead ≤ ring'.reserveHead)
    (release : ring.releaseHead ≤ ring'.releaseHead) : PushFacts cfg ring' pc := by
  cases pc with
  | loadRelease task wh => exact Nat.le_trans facts reserve
  | casReserve task wh rh => exact ⟨Nat.le_trans facts.1 release, facts.2⟩
  | _ => exact facts

/-- A step of a thread in `Threadpool_Schedule` leaves the release head alone. -/
theorem PushInv.sched_step (inv : PushInv cfg p) (sched : p'.sched = update p.sched i pc)
    (reserve : p.ring.reserveHead ≤ p'.ring.reserveHead) (release : p'.ring.releaseHead = p.ring.releaseHead)
    (room : p'.ring.reserveHead + 2 ≤ p.ring.releaseHead + cfg.ringbufSize) (facts : PushFacts cfg p'.ring pc) :
    PushInv cfg p' := by
  refine ⟨inv.size, by rw [release]; exact room, fun k => ?_⟩
  rw [sched, update_apply]
  split
  · exact facts
  · exact (inv.sched k).later reserve (Nat.le_of_eq release.symm)

/-- A step that does nothing to the two heads, and goes on with the value that the thread has computed. -/
theorem PushInv.sched_keep (inv : PushInv cfg p) (sched : p'.sched = update p.sched i pc)
    (reserve : p'.ring.reserveHead = p.ring.reserveHead) (release : p'.ring.releaseHead = p.ring.releaseHead)
    (facts : PushFacts cfg p.ring pc) : PushInv cfg p' :=
  inv.sched_step sched (Nat.le_of_eq reserve.symm) release (by rw [reserve]; exact inv.room)
    (facts.later (Nat.le_of_eq reserve.symm) (Nat.le_of_eq release.symm))

theorem PushInv.fail (inv : PushInv cfg p) : PushInv cfg p.fail := ⟨inv.size, inv.room, inv.sched⟩

/-- What a thread gets when it loads the release head. -/
theorem PushInv.sizeSub_eq (inv : PushInv cfg p) {task : ThreadpoolTask} {wh : Nat} (here : p.sched i = .loadRelease task wh)
    (unpassed : p.ring.releaseHead ≤ wh) : sizeSub wh p.ring.releaseHead = wh - p.ring.releaseHead := by
  have facts := inv.sched i
  rw [here] at facts
  change wh ≤ p.ring.reserveHead at facts
  have room := inv.room
  have size := inv.size
  unfold sizeSub
  rw [show wh + sizeRange - p.ring.releaseHead = wh - p.ring.releaseHead + sizeRange by omega, Nat.add_mod_right,
    Nat.mod_eq_of_lt (by omega)]

theorem PushInv.schedStep (inv : PushInv cfg p) {ok : Bool} (unpassed : Unpassed p (.sched i ok))
    (taken : p.schedStep cfg i ok = some p') : PushInv cfg p' := by
  have facts := inv.sched i
  have room := inv.room
  have size := inv.size
  cases pc : p.sched i <;> rw [pc] at facts <;> simp only [Pool.schedStep, pc] at taken
  case idle res => cases taken
  case loadReserve task =>
    cases taken
    exact inv.sched_keep rfl rfl rfl (Nat.le_refl _)
  case loadRelease task wh =>
    change wh ≤ p.ring.reserveHead at facts
    have behind := unpassed wh (by rw [pc]; rfl)
    rw [inv.sizeSub_eq pc behind] at taken
    split at taken <;> cases taken
    · refine inv.sched_keep rfl rfl rfl fun back same => ?_
      cases same
      omega
    · rename_i small
      exact inv.sched_keep rfl rfl rfl ⟨Nat.le_refl _, behind, by omega⟩
  case casReserve task wh rh =>
    obtain ⟨seen, behind, small⟩ := facts
    split at taken <;> cases taken
    · rename_i here
      refine inv.sched_step rfl (by dsimp only [Pool.goto]; omega) rfl (by dsimp only [Pool.goto]; omega) fun back same => ?_
      cases same
      unfold sizeSub
      rw [show wh + sizeRange - rh = wh - rh + sizeRange by omega, Nat.add_mod_right, Nat.mod_eq_of_lt (by omega)]
      omega
    · exact inv.sched_keep rfl rfl rfl fun back same => by cases same
  all_goals first
    | (cases taken; exact inv.sched_keep rfl rfl rfl facts)
    | (split at taken <;> cases taken <;> first | exact inv.sched_keep rfl rfl rfl facts | exact inv.fail)

theorem workerStep_heads {j : Nat} {ok : Bool} (taken : p.workerStep cfg j ok = some p') :
    p'.ring.reserveHead = p.ring.reserveHead ∧ p.ring.releaseHead ≤ p'.ring.releaseHead := by
  unfold Pool.workerStep at taken
  split at taken
  · cases taken
  · rename_i w found
    cases pc : w.pc <;> simp only [pc] at taken
    case poll =>
      split at taken
      · split at taken <;> cases taken
        exact ⟨rfl, Nat.le_refl _⟩
      · cases taken
        exact ⟨rfl, Nat.le_refl _⟩
    case casRelease rh task relh =>
      split at taken <;> cases taken
      · rename_i here
        exact ⟨rfl, by rw [here]; exact Nat.le_succ _⟩
      · exact ⟨rfl, Nat.le_refl _⟩
    all_goals first
      | (cases taken; exact ⟨rfl, Nat.le_refl _⟩)
      | (split at taken <;> cases taken <;> exact ⟨rfl, Nat.le_refl _⟩)

theorem PushInv.step {label : PoolLabel} (inv : PushInv cfg p) (unpassed : Unpassed p label)
    (taken : poolStep cfg p label = some p') : PushInv cfg p' := by
  unfold poolStep at taken
  split at taken
  · cases taken
  · cases label with
    | call i task =>
      dsimp only at taken
      split at taken
      · split at taken <;> cases taken
        · exact inv
        · exact inv.sched_keep rfl rfl rfl fun back same => by cases same
      · cases taken
    | sched i result => exact inv.schedStep unpassed taken
    | worker j result =>
      obtain ⟨reserve, release⟩ := workerStep_heads taken
      have room := inv.room
      refine ⟨inv.size, by omega, fun k => ?_⟩
      rw [workerStep_sched taken]
      exact (inv.sched k).later (Nat.le_of_eq reserve.symm) release

theorem PushInv.initial (init : threadpoolInit cfg = some start) : PushInv cfg start := by
  obtain ⟨least, _, most⟩ := ringbufSize_bounds (threadpoolInit_fits init)
  unfold threadpoolInit at init
  dsimp only at init
  split at init
  · cases init
  · split at init <;> cases init
    refine ⟨⟨least, ?_⟩, ?_, fun i back same => by cases same⟩
    · have range : 0 < sizeRange := by decide
      omega
    · dsimp only
      omega

theorem PushInv.of_reach (init : threadpoolInit cfg = some start) (reach : Reach (poolStep cfg) start Unpassed p) :
    PushInv cfg p :=
  reach.invariant (PushInv.initial init) fun _ _ _ inv ok taken => inv.step ok taken

/-- A `Threadpool_Schedule` returns false when it has just loaded the release head. -/
theorem schedStep_false {ok : Bool} {back : Nat} (taken : p.schedStep cfg i ok = some p')
    (refused : p'.sched i = .idle (some (false, back))) : ∃ task wh, p.sched i = .loadRelease task wh ∧
      back = sizeSub wh p.ring.releaseHead ∧ cfg.ringbufSize - 1 - 1 ≤ back := by
  have reached (q : Pool) (pc : SchedPc) : (q.goto i pc).sched i = pc := update_self ..
  cases pc : p.sched i <;> simp only [Pool.schedStep, pc] at taken
  case idle res => cases taken
  case loadRelease task wh =>
    split at taken <;> cases taken
    · rename_i full
      rw [reached] at refused
      cases refused
      exact ⟨task, wh, rfl, rfl, full⟩
    · rw [reached] at refused
      cases refused
  all_goals first
    | (cases taken; rw [reached] at refused; cases refused)
    | (split at taken <;> cases taken <;> first
        | (rw [reached] at refused; cases refused)
        | (rw [show p.fail.sched i = _ from pc] at refused; cases refused))

end Pushback

/-- In every run in which no release head is loaded that has passed the reserve head loaded before it, the values for
`*pushback` are within the ring, and a `Threadpool_Schedule` is refused only at an instant at which all but two cells of
the ring are reserved and not released. A caller for which the release head has passed is refused with a value beyond
the size of the ring. -/
theorem schedule_reports_honestly {cfg : ThreadpoolConfig} {start p : Pool} (init : threadpoolInit cfg = some start)
    (reach : Reach (poolStep cfg) start Unpassed p) :
    (∀ i ok back, p.sched i = .idle (some (ok, back)) → back ≤ cfg.ringbufSize) ∧
    (∀ i result p' back, Unpassed p (.sched i result) → poolStep cfg p (.sched i result) = some p' →
      p'.sched i = .idle (some (false, back)) → cfg.ringbufSize - 2 ≤ p.ring.reserveHead - p.ring.releaseHead) ∧
    ∀ i result p', ¬ Unpassed p (.sched i result) → p.ring.releaseHead + cfg.ringbufSize < sizeRange →
      poolStep cfg p (.sched i result) = some p' →
        ∃ back, p'.sched i = .idle (some (false, back)) ∧ cfg.ringbufSize < back := by
  have inv := PushInv.of_reach init reach
  have sched {i : Nat} {result : Bool} {p' : Pool} (taken : poolStep cfg p (.sched i result) = some p') :
      p.schedStep cfg i result = some p' := by
    unfold poolStep at taken
    split at taken
    · cases taken
    · exact taken
  refine ⟨fun i ok back returned => ?_, fun i result p' back unpassed taken refused => ?_,
    fun i result p' passed small taken => ?_⟩
  · have facts := inv.sched i
    rw [returned] at facts
    exact facts back rfl
  · obtain ⟨task, wh, here, value, full⟩ := schedStep_false (sched taken) refused
    have behind := unpassed wh (by rw [here]; rfl)
    have facts := inv.sched i
    rw [here] at facts
    change wh ≤ p.ring.reserveHead at facts
    rw [inv.sizeSub_eq here behind] at value
    omega
  · have size := inv.size
    simp only [Unpassed, not_forall] at passed
    obtain ⟨wh, loaded, ahead⟩ := passed
    have step := sched taken
    cases here : p.sched i with
    | loadRelease task wh' =>
      rw [here] at loaded
      cases loaded
      have wild : sizeSub wh p.ring.releaseHead = wh + sizeRange - p.ring.releaseHead := by
        unfold sizeSub
        exact Nat.mod_eq_of_lt (by omega)
      simp only [Pool.schedStep, here] at step
      rw [if_pos (by omega)] at step
      cases step
      refine ⟨sizeSub wh p.ring.releaseHead, update_self .., ?_⟩
      omega
    | _ =>
      rw [here] at loaded
      cases loaded

/-- The worker does not run, and caller 0 fills the ring with six tasks and schedules another one. -/
def fullRing : List PoolLabel :=
  callSteps 0 ⟨10, 0, 20⟩ 27 ++ (List.replicate 5 (callSteps 0 ⟨10, 0, 20⟩ 21)).flatten ++ callSteps 0 ⟨10, 0, 20⟩ 1

theorem schedule_reports_honestly_full : ∃ start p p', threadpoolInit ⟨3, 1⟩ = some start ∧
    Reach (poolStep ⟨3, 1⟩) start Unpassed p ∧ poolStep ⟨3, 1⟩ p (.sched 0 true) = some p' ∧
      p'.sched 0 = .idle (some (false, 6)) ∧
      ThreadpoolConfig.ringbufSize ⟨3, 1⟩ - 2 ≤ p.ring.reserveHead - p.ring.releaseHead := by
  have trace : poolTrace ⟨3, 1⟩ Unpassed fullRing (fun p => (decide (Unpassed p (.sched 0 true)),
      (poolStep ⟨3, 1⟩ p (.sched 0 true)).map fun p' => p'.sched 0)) =
      some (true, some (.idle (some (false, 6)))) := by decide +kernel
  obtain ⟨start, p, init, reach, seen⟩ := poolTrace_reach trace
  simp only [Prod.mk.injEq, decide_eq_true_eq] at seen
  obtain ⟨unpassed, after⟩ := seen
  obtain ⟨p', taken, refused⟩ := Option.map_eq_some_iff.mp after
  exact ⟨start, p, p', init, reach, taken, refused,
    (schedule_reports_honestly init reach).2.1 0 true p' 6 unpassed taken refused⟩

/-- Caller 0 loads the reserve head. Caller 1 schedules a task, which a worker runs, before caller 0 loads the release head
and is refused. -/
def passedCaller : List PoolLabel :=
  callSteps 0 ⟨10, 0, 20⟩ 1 ++ callSteps 1 ⟨11, 0, 21⟩ 27 ++ workSteps 0 19 ++ [.sched 0 true]

/-- A ring of eight cells in which there is never more than one task refuses one, with a value for `*pushback` of
`2 ^ 64 - 1`. -/
theorem schedule_refused_by_empty_ring : ∃ start p, threadpoolInit ⟨3, 4⟩ = some start ∧
    Reach (poolStep ⟨3, 4⟩) start (fun p _ => NotWrapping p ∧ p.ring.reserveHead - p.ring.releaseHead ≤ 1) p ∧
      p.sched 0 = .idle (some (false, 2 ^ 64 - 1)) ∧ p.ring.reserveHead - p.ring.releaseHead = 0 ∧
      ThreadpoolConfig.ringbufSize ⟨3, 4⟩ = 8 := by
  have trace : poolTrace ⟨3, 4⟩ (fun p _ => NotWrapping p ∧ p.ring.reserveHead - p.ring.releaseHead ≤ 1) passedCaller
      (fun p => (p.sched 0, p.ring.reserveHead - p.ring.releaseHead)) =
      some (.idle (some (false, 2 ^ 64 - 1)), 0) := by decide +kernel
  obtain ⟨start, p, init, reach, seen⟩ := poolTrace_reach trace
  simp only [Prod.mk.injEq] at seen
  exact ⟨start, p, init, reach, seen.1, seen.2, rfl⟩

end Kinetic
