import Kinetic.Threadpool.WakeupSched

namespace Kinetic
open Transition Function

section Work
variable {cfg : ThreadpoolConfig} {p p' : Pool} {j : Nat} {w w' : Worker}

theorem WakeInv.worker_move (inv : WakeInv p) (found : p.workers j = some w)
    (workers : p'.workers = update p.workers j (some w')) (slot : w'.slot = w.slot) (sched : p'.sched = p.sched)
    (request : p.ring.requestHead ≤ p'.ring.requestHead)
    (status : ∀ k, (p'.threads k).status = .asleep → (p.threads k).status = .asleep ∨ k = w.slot)
    (loaded : ∀ q, w'.pc = .testCommit q → q ≤ p'.ring.requestHead) (guarded : Guarded p') : WakeInv p' := by
  have new : p'.workers j = some w' := by rw [workers, update_self]
  have staffed : Staffed p' := ⟨j, w', new⟩
  have before {k : Nat} {v : Worker} (seen : p'.workers k = some v) : (k = j ∧ v = w') ∨ p.workers k = some v := by
    by_cases same : k = j
    · subst k
      exact Or.inl ⟨rfl, Option.some.inj (seen.symm.trans new)⟩
    · rw [workers, update_of_ne same] at seen
      exact Or.inr seen
  have after {k : Nat} (seen : ∃ j w, p.workers j = some w ∧ w.slot = k) : ∃ j w, p'.workers j = some w ∧ w.slot = k := by
    obtain ⟨i, v, seen, rfl⟩ := seen
    by_cases same : i = j
    · subst i
      cases found.symm.trans seen
      exact ⟨j, w', new, slot⟩
    · exact ⟨i, v, by rw [workers, update_of_ne same]; exact seen, rfl⟩
  refine ⟨fun k v q seen at_ => ?_, fun _ => staffed, fun _ _ => staffed, fun k seen => ?_, fun i back k seen => ?_,
    guarded⟩
  · rcases before seen with ⟨_, rfl⟩ | old
    · exact loaded q at_
    · exact Nat.le_trans (inv.loaded k v q old at_) request
  · rcases status k seen with old | here
    · exact after (inv.asleep k old)
    · exact ⟨j, w', new, slot.trans here.symm⟩
  · rw [sched] at seen
    exact after (inv.target i back k seen)

/-- A worker that does not rest after its step sees to the committed tasks. -/
theorem WakeInv.worker_awake (inv : WakeInv p) (found : p.workers j = some w)
    (workers : p'.workers = update p.workers j (some w')) (slot : w'.slot = w.slot) (awake : w'.pc.resting = false)
    (sched : p'.sched = p.sched) (request : p.ring.requestHead ≤ p'.ring.requestHead)
    (status : ∀ k, (p'.threads k).status = .asleep → (p.threads k).status = .asleep ∨ k = w.slot)
    (loaded : ∀ q, w'.pc = .testCommit q → q ≤ p'.ring.requestHead) : WakeInv p' := by
  refine inv.worker_move found workers slot sched request status loaded (Or.inl ⟨j, w', ?_, fun rests => ?_⟩)
  · rw [workers, update_self]
  · cases awake.symm.trans rests.1

theorem WakeInv.worker_goto (inv : WakeInv p) (found : p.workers j = some w) {pc : WorkerPc} (awake : pc.resting = false)
    (loaded : ∀ q, pc = .testCommit q → q ≤ p.ring.requestHead) : WakeInv (p.setWorker j { w with pc := pc }) :=
  inv.worker_awake found rfl rfl awake rfl (Nat.le_refl _) (fun _ seen => Or.inl seen) loaded

/-- A resting worker that goes on to rest leaves everything to those who saw to it before. -/
theorem WakeInv.worker_rest (inv : WakeInv p) (found : p.workers j = some w) (rested : w.pc.resting = true) {pc : WorkerPc}
    (rests : pc.resting = true) (workers : p'.workers = update p.workers j (some { w with pc := pc }))
    (sched : p'.sched = p.sched) (ring : p'.ring = p.ring) (pipes : p'.pipes = p.pipes)
    (status : ∀ k, (p'.threads k).status = .asleep → (p.threads k).status = .asleep ∨ k = w.slot) : WakeInv p' := by
  have new : p'.workers j = some { w with pc := pc } := by rw [workers, update_self]
  refine inv.worker_move found workers rfl sched (Nat.le_of_eq (by rw [ring])) status
    (fun q here => ?_) ?_
  · cases here
    cases rests
  · rcases inv.guarded with ⟨k, v, seen, restless⟩ | empty | idle | ⟨i, k, scan, ahead⟩
    · by_cases same : k = j
      · subst k
        cases found.symm.trans seen
        refine Or.inl ⟨j, _, new, fun dormant => restless ⟨rested, ?_⟩⟩
        rw [← pipes]
        exact dormant.2
      · refine Or.inl ⟨k, v, by rw [workers, update_of_ne same]; exact seen, fun dormant => restless ⟨dormant.1, ?_⟩⟩
        rw [← pipes]
        exact dormant.2
    · exact absurd ⟨j, w, found⟩ empty
    · rw [← ring] at idle
      exact Or.inr (Or.inr (Or.inl idle))
    · refine Or.inr (Or.inr (Or.inr ⟨i, k, by rw [sched]; exact scan, fun m v seen => ?_⟩))
      by_cases same : m = j
      · subst m
        cases new.symm.trans seen
        exact ahead j w found
      · rw [workers, update_of_ne same] at seen
        exact ahead m v seen

theorem WakeInv.workerStep (inv : WakeInv p) {ok : Bool} (taken : p.workerStep cfg j ok = some p') : WakeInv p' := by
  unfold Pool.workerStep at taken
  split at taken
  · cases taken
  · rename_i w found
    cases pc : w.pc <;> simp only [pc] at taken
    case start =>
      cases taken
      exact inv.worker_awake found rfl rfl rfl rfl (Nat.le_refl _) (fun _ seen => Or.inl seen) (by simp)
    case testRequest =>
      cases taken
      refine inv.worker_goto found rfl fun q here => ?_
      cases here
      exact Nat.le_refl _
    case testCommit q =>
      split at taken <;> cases taken
      · rename_i empty
        have seen := inv.loaded j w q found pc
        refine inv.worker_move found rfl rfl rfl (Nat.le_refl _) (fun _ seen => Or.inl seen) (by simp)
          (Or.inr (Or.inr (Or.inl ?_)))
        rw [empty] at seen
        exact seen
      · exact inv.worker_goto found rfl (by simp)
    case sleepTest =>
      split at taken <;> cases taken <;>
        exact inv.worker_rest found (by rw [pc]; rfl) rfl rfl rfl rfl rfl fun _ seen => Or.inl seen
    case sleepSet =>
      cases taken
      refine inv.worker_rest found (by rw [pc]; rfl) rfl rfl rfl rfl rfl fun k seen => ?_
      by_cases here : k = w.slot
      · exact Or.inr here
      · exact Or.inl ((congrArg ThreadInfo.status (update_of_ne here _ _)).symm.trans seen)
    case poll =>
      split at taken
      · split at taken <;> cases taken
        exact inv.worker_goto found rfl (by simp)
      · cases taken
        exact inv.worker_goto found rfl (by simp)
    case wakeTest => split at taken <;> cases taken <;> exact inv.worker_goto found rfl (by simp)
    case wakeSet =>
      cases taken
      refine inv.worker_awake found rfl rfl rfl rfl (Nat.le_refl _) (fun k seen => Or.inl ?_) (by simp)
      exact setThread_status (fun awake => by cases awake) k seen
    case read =>
      split at taken <;> cases taken
      exact inv.worker_awake found rfl rfl rfl rfl (Nat.le_refl _) (fun _ seen => Or.inl seen) (by simp)
    case claimCommit => cases taken; exact inv.worker_goto found rfl (by simp)
    case claimRequest ch => split at taken <;> cases taken <;> exact inv.worker_goto found rfl (by simp)
    case claimCas rh =>
      split at taken <;> cases taken
      · rename_i here
        subst here
        exact inv.worker_awake found rfl rfl rfl rfl (Nat.le_succ _) (fun _ seen => Or.inl seen) (by simp)
      · exact inv.worker_goto found rfl (by simp)
    case assertMark rh =>
      split at taken <;> cases taken
      · exact inv.worker_goto found rfl (by simp)
      · exact inv.fail
    case copyTask rh => cases taken; exact inv.worker_goto found rfl (by simp)
    case copyCleanup rh task => cases taken; exact inv.worker_goto found rfl (by simp)
    case copyUdata rh task cleanup => cases taken; exact inv.worker_goto found rfl (by simp)
    case releaseMark rh task =>
      cases taken
      exact inv.worker_awake found rfl rfl rfl rfl (Nat.le_refl _) (fun _ seen => Or.inl seen) (by simp)
    case loadRelease rh task => cases taken; exact inv.worker_goto found rfl (by simp)
    case loadReleased rh task relh => split at taken <;> cases taken <;> exact inv.worker_goto found rfl (by simp)
    case casRelease rh task relh =>
      split at taken <;> cases taken
      · exact inv.worker_awake found rfl rfl rfl rfl (Nat.le_refl _) (fun _ seen => Or.inl seen) (by simp)
      · exact inv.worker_goto found rfl (by simp)
    case assertReleased rh task relh =>
      split at taken <;> cases taken
      · exact inv.worker_goto found rfl (by simp)
      · exact inv.fail
    case run rh task =>
      cases taken
      exact inv.worker_awake found rfl rfl rfl rfl (Nat.le_refl _) (fun _ seen => Or.inl seen) (by simp)

end Work

section Threads
variable {cfg : ThreadpoolConfig} {start p p' : Pool} {label : PoolLabel}

theorem Bounded.create (bounded : Bounded p) (w : Worker) :
    Bounded { p.setWorker p.created w with created := p.created + 1 } := by
  intro k v found
  by_cases same : k = p.created
  · subst k
    exact Nat.lt_succ_self _
  · exact Nat.lt_succ_of_lt (bounded k v ((update_of_ne same _ _).symm.trans found))

theorem Bounded.schedStep (bounded : Bounded p) {i : Nat} {ok : Bool} (taken : p.schedStep cfg i ok = some p') :
    Bounded p' := by
  cases pc : p.sched i <;> simp only [Pool.schedStep, pc] at taken
  case spawnCreate back id =>
    split at taken <;> cases taken
    · exact bounded.create _
    · exact bounded
  case idle res => cases taken
  all_goals first
    | (cases taken; exact bounded)
    | (split at taken <;> cases taken <;> exact bounded)

theorem Bounded.setWorker (bounded : Bounded p) {j : Nat} {w v : Worker} (found : p.workers j = some w) :
    Bounded (p.setWorker j v) := by
  intro k u seen
  by_cases same : k = j
  · rw [same]
    exact bounded j w found
  · exact bounded k u ((update_of_ne same _ _).symm.trans seen)

theorem Bounded.workerStep (bounded : Bounded p) {j : Nat} {ok : Bool} (taken : p.workerStep cfg j ok = some p') :
    Bounded p' := by
  unfold Pool.workerStep at taken
  split at taken
  · cases taken
  · rename_i w found
    have moved (v : Worker) : Bounded (p.setWorker j v) := bounded.setWorker found
    cases pc : w.pc <;> simp only [pc] at taken
    case poll =>
      split at taken
      · split at taken <;> cases taken
        exact moved _
      · cases taken
        exact moved _
    all_goals first
      | (cases taken; exact moved _)
      | (split at taken <;> cases taken <;> first | exact moved _ | exact bounded)

theorem Bounded.step (bounded : Bounded p) (taken : poolStep cfg p label = some p') : Bounded p' := by
  unfold poolStep at taken
  split at taken
  · cases taken
  · cases label with
    | call i task =>
      dsimp only at taken
      split at taken
      · split at taken <;> cases taken <;> exact bounded
      · cases taken
    | sched i result => exact bounded.schedStep taken
    | worker j result => exact bounded.workerStep taken

def PoolLabel.caller : PoolLabel → Option Nat
  | .call i _ => some i
  | .sched i _ => some i
  | .worker _ _ => none

theorem schedStep_other {i k : Nat} {ok : Bool} (taken : p.schedStep cfg i ok = some p') (other : k ≠ i) :
    p'.sched k = p.sched k := by
  have moved (q : Pool) (pc : SchedPc) (same : q.sched = p.sched) : (q.goto i pc).sched k = p.sched k :=
    (update_of_ne other _ _).trans (congrFun same k)
  cases pc : p.sched i <;> simp only [Pool.schedStep, pc] at taken
  case idle res => cases taken
  all_goals first
    | (cases taken; exact moved _ _ rfl)
    | (split at taken <;> cases taken <;> first | exact moved _ _ rfl | rfl)

theorem workerStep_sched {j : Nat} {ok : Bool} (taken : p.workerStep cfg j ok = some p') : p'.sched = p.sched := by
  unfold Pool.workerStep at taken
  split at taken
  · cases taken
  · rename_i w found
    cases pc : w.pc <;> simp only [pc] at taken
    case poll =>
      split at taken
      · split at taken <;> cases taken
        rfl
      · cases taken
        rfl
    all_goals first
      | (cases taken; rfl)
      | (split at taken <;> cases taken <;> rfl)

theorem poolStep_sched_other {k : Nat} (taken : poolStep cfg p label = some p') (other : label.caller ≠ some k) :
    p'.sched k = p.sched k := by
  unfold poolStep at taken
  split at taken
  · cases taken
  · cases label with
    | call i task =>
      dsimp only at taken
      split at taken
      · split at taken <;> cases taken
        · rfl
        · exact update_of_ne (fun same => other (congrArg some same.symm)) _ _
      · cases taken
    | sched i result => exact schedStep_other taken fun same => other (congrArg some same.symm)
    | worker j result => rw [workerStep_sched taken]

/-- A thread of which a run has no step is where it was. -/
theorem exec_sched_other {ok : Pool → PoolLabel → Bool} {labels : List PoolLabel} {k : Nat}
    (run : exec (poolStep cfg) ok p labels = some p') (absent : ∀ label ∈ labels, label.caller ≠ some k) :
    p'.sched k = p.sched k := by
  induction labels generalizing p with
  | nil => cases run; rfl
  | cons label rest ih =>
    unfold exec at run
    split at run
    · obtain ⟨next, taken, later⟩ := Option.bind_eq_some_iff.mp run
      rw [ih later fun other member => absent other (List.mem_cons_of_mem _ member)]
      exact poolStep_sched_other taken (absent label (List.mem_cons_self ..))
    · cases run

theorem Bounded.initial (init : threadpoolInit cfg = some start) : Bounded start := by
  unfold threadpoolInit at init
  dsimp only at init
  split at init
  · cases init
  · split at init <;> cases init
    intro j w found
    cases found

end Threads

end Kinetic
