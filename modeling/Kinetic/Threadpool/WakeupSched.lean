import Kinetic.Threadpool.Wakeup

namespace Kinetic
open Transition Function

section Sched
variable {cfg : ThreadpoolConfig} {p p' : Pool} {i : Nat} {pc : SchedPc}

theorem WakeInv.fail (inv : WakeInv p) : WakeInv p.fail :=
  ⟨inv.loaded, inv.live, inv.spawned, inv.asleep, inv.target, inv.guarded⟩

theorem setThread_status {p : Pool} {id : Nat} {ti : ThreadInfo} (same : ti.status = .asleep → (p.threads id).status = .asleep)
    (k : Nat) (seen : ((p.setThread id ti).threads k).status = .asleep) : (p.threads k).status = .asleep := by
  change (update p.threads id ti k).status = .asleep at seen
  by_cases here : k = id
  · subst k
    rw [update_self] at seen
    exact same seen
  · rw [update_of_ne here] at seen
    exact seen

/-- The search ends at the last live entry: every worker is awake, or there is none. -/
theorem WakeInv.search_end (inv : WakeInv p) (bounded : Bounded p) {back k : Nat} (here : p.sched i = .notify back k)
    (last : ¬ k < p.liveThreads)
    (settled : ∀ j < p.created, ∀ w ∈ p.workers j, Dormant p w → Findable p w) : WakeInv (p.goto i (.spawnTest back)) := by
  refine inv.sched_move rfl rfl rfl rfl (fun _ => Nat.le_refl _) (fun _ seen => seen) inv.live (fun seen => by cases seen)
    (fun _ _ same => by cases same) fun k' scan staffed dormant => ?_
  rw [here] at scan
  cases scan
  obtain ⟨j, w, found⟩ := staffed
  obtain ⟨ahead, rests⟩ := dormant j w found
  have findable := settled j (bounded j w found) w found rests
  exact absurd (Nat.lt_of_le_of_lt ahead findable.1) last

theorem WakeInv.search_pass (inv : WakeInv p) (bounded : Bounded p) {back k : Nat} (here : p.sched i = .notifyStatus back k)
    (other : (p.threads k).status ≠ .asleep)
    (settled : ∀ j < p.created, ∀ w ∈ p.workers j, Dormant p w → Findable p w) :
    WakeInv (p.goto i (.notify back (k + 1))) := by
  refine inv.sched_move rfl rfl rfl rfl (fun _ => Nat.le_refl _) (fun _ seen => seen) inv.live (fun seen => by cases seen)
    (fun _ _ same => by cases same) fun k' scan staffed dormant => ?_
  rw [here] at scan
  cases scan
  refine Or.inr ⟨k + 1, rfl, fun j w found => ?_⟩
  obtain ⟨ahead, rests⟩ := dormant j w found
  have findable := settled j (bounded j w found) w found rests
  have different : w.slot ≠ k := fun same => other (same ▸ findable.2.1)
  omega

theorem WakeInv.search_wake (inv : WakeInv p) (bounded : Bounded p) {back k : Nat} (here : p.sched i = .notifyWrite back k)
    (settled : ∀ j < p.created, ∀ w ∈ p.workers j, Dormant p w → Findable p w) :
    WakeInv ({ p with pipes := update p.pipes (p.threads k).parentFd (p.pipes (p.threads k).parentFd + 1) }.goto i
      (.idle (some (true, back)))) := by
  have more (fd : Nat) :
      p.pipes fd ≤ update p.pipes (p.threads k).parentFd (p.pipes (p.threads k).parentFd + 1) fd := by
    by_cases same : fd = (p.threads k).parentFd
    · subst fd
      rw [update_self]
      exact Nat.le_succ _
    · exact Nat.le_of_eq (by rw [update_of_ne same])
  refine inv.sched_move rfl rfl rfl rfl more (fun _ seen => seen) inv.live (fun seen => by cases seen)
    (fun _ _ same => by cases same) fun k' scan staffed dormant => Or.inl ?_
  obtain ⟨j, w, found, slot⟩ := inv.target i back k here
  refine ⟨j, w, found, fun rests => ?_⟩
  have findable := settled j (bounded j w found) w found (dormant j w found).2
  have pipe : w.pfd = (p.threads k).parentFd := slot ▸ findable.2.2.symm
  have filled : update p.pipes (p.threads k).parentFd (p.pipes (p.threads k).parentFd + 1) w.pfd = 0 := rests.2
  rw [pipe, update_self] at filled
  exact absurd filled (Nat.succ_ne_zero _)

theorem WakeInv.sched_create (inv : WakeInv p) (bounded : Bounded p) {back id : Nat} :
    WakeInv ({ p.setWorker p.created ⟨id, 0, .start⟩ with created := p.created + 1 }.goto i (.spawnAwake back id)) := by
  have new : ({ p.setWorker p.created ⟨id, 0, .start⟩ with created := p.created + 1 }.goto i (.spawnAwake back id)).workers
      p.created = some ⟨id, 0, .start⟩ := update_self ..
  have old (j : Nat) (w : Worker) (found : p.workers j = some w) :
      ({ p.setWorker p.created ⟨id, 0, .start⟩ with created := p.created + 1 }.goto i (.spawnAwake back id)).workers j =
        some w := (update_of_ne (Nat.ne_of_lt (bounded j w found)) _ _).trans found
  have staffed : Staffed
      ({ p.setWorker p.created ⟨id, 0, .start⟩ with created := p.created + 1 }.goto i (.spawnAwake back id)) := ⟨_, _, new⟩
  have which (j : Nat) (w : Worker) (found :
      ({ p.setWorker p.created ⟨id, 0, .start⟩ with created := p.created + 1 }.goto i (.spawnAwake back id)).workers j =
        some w) : (j = p.created ∧ w = ⟨id, 0, .start⟩) ∨ p.workers j = some w := by
    by_cases same : j = p.created
    · subst j
      exact Or.inl ⟨rfl, Option.some.inj (found.symm.trans new)⟩
    · exact Or.inr ((update_of_ne same _ _).symm.trans found)
  refine ⟨fun j w q found at_ => ?_, fun _ => staffed, fun _ _ => staffed, fun k seen => ?_,
    fun k back' entry seen => ?_, Or.inl ⟨_, _, new, fun rests => by cases rests.1⟩⟩
  · rcases which j w found with ⟨_, rfl⟩ | before
    · cases at_
    · exact inv.loaded j w q before at_
  · obtain ⟨j, w, found, slot⟩ := inv.asleep k seen
    exact ⟨j, w, old j w found, slot⟩
  · have before : p.sched k = .notifyWrite back' entry := by
      by_cases same : k = i
      · subst k
        have here : (SchedPc.spawnAwake back id) = .notifyWrite back' entry := (update_self _ _ _).symm.trans seen
        cases here
      · exact (update_of_ne same _ _).symm.trans seen
    obtain ⟨j, w, found, slot⟩ := inv.target k back' entry before
    exact ⟨j, w, old j w found, slot⟩

theorem WakeInv.schedStep (inv : WakeInv p) (bounded : Bounded p) {ok : Bool} (settled : SettledScan p (.sched i ok))
    (taken : p.schedStep cfg i ok = some p') : WakeInv p' := by
  have keep (k : Nat) (seen : (p.threads k).status = .asleep) : (p.threads k).status = .asleep := seen
  cases pc : p.sched i <;> simp only [Pool.schedStep, pc] at taken <;> simp only [SettledScan, pc, SchedPc.scanning] at settled
  case idle res => cases taken
  case loadReserve task => cases taken; exact inv.sched_goto pc rfl (Or.inl rfl)
  case loadRelease task wh =>
    split at taken <;> cases taken <;> exact inv.sched_goto pc rfl (Or.inl rfl)
  case casReserve task wh rh =>
    split at taken <;> cases taken
    · exact inv.sched_write pc rfl rfl rfl rfl rfl rfl keep inv.live (Or.inl rfl)
    · exact inv.sched_goto pc rfl (Or.inl rfl)
  case assertReserve task wh back =>
    cases taken
    exact inv.sched_goto pc rfl (Or.inl rfl)
  case assertRelease task wh back reserve =>
    split at taken <;> cases taken
    · exact inv.sched_goto pc rfl (Or.inl rfl)
    · exact inv.fail
  case writeTask task wh back =>
    cases taken
    exact inv.sched_write pc rfl rfl rfl rfl rfl rfl keep inv.live (Or.inl rfl)
  case writeCleanup task wh back =>
    cases taken
    exact inv.sched_write pc rfl rfl rfl rfl rfl rfl keep inv.live (Or.inl rfl)
  case writeUdata task wh back =>
    cases taken
    exact inv.sched_write pc rfl rfl rfl rfl rfl rfl keep inv.live (Or.inl rfl)
  case writeMark task wh back =>
    cases taken
    exact inv.sched_write pc rfl rfl rfl rfl rfl rfl keep inv.live (Or.inl rfl)
  case loadCommit back => cases taken; exact inv.sched_scan rfl rfl
  case loadMark back ch => split at taken <;> cases taken <;> exact inv.sched_scan rfl rfl
  case assertReserved back ch =>
    split at taken <;> cases taken
    · exact inv.sched_scan rfl rfl
    · exact inv.fail
  case casCommit back ch =>
    split at taken <;> cases taken
    · rename_i here
      subst here
      exact inv.sched_commit
    · exact inv.sched_scan rfl rfl
  case assertRequest back => cases taken; exact inv.sched_scan rfl rfl
  case assertCommit back q =>
    split at taken <;> cases taken
    · exact inv.sched_scan rfl rfl
    · exact inv.fail
  case notify back k =>
    split at taken <;> cases taken
    · refine inv.sched_move rfl rfl rfl rfl (fun _ => Nat.le_refl _) keep inv.live (by simp [SchedPc.spawned]) (by simp)
        fun k' scan _ dormant => Or.inr ⟨k', ?_, fun j w found => (dormant j w found).1⟩
      rw [pc] at scan
      exact scan
    · rename_i last
      exact inv.search_end bounded pc last (settled trivial)
  case notifyStatus back k =>
    split at taken <;> cases taken
    · rename_i sleeps
      refine inv.sched_move rfl rfl rfl rfl (fun _ => Nat.le_refl _) keep inv.live (by simp [SchedPc.spawned]) ?_
        fun k' scan _ dormant => Or.inr ⟨k', ?_, fun j w found => (dormant j w found).1⟩
      · intro back' entry same
        cases same
        exact inv.asleep k sleeps
      · rw [pc] at scan
        exact scan
    · rename_i other
      exact inv.search_pass bounded pc other (settled trivial)
  case notifyWrite back k => cases taken; exact inv.search_wake bounded pc (settled trivial)
  case spawnTest back =>
    split at taken <;> cases taken <;> exact inv.sched_goto pc rfl (Or.inl rfl)
  case spawnId back =>
    split at taken <;> cases taken <;> exact inv.sched_goto pc rfl (Or.inl rfl)
  case spawnPipe back id =>
    split at taken <;> cases taken
    · exact inv.sched_write pc rfl rfl rfl rfl rfl rfl keep inv.live (Or.inl rfl)
    · exact inv.sched_goto pc rfl (Or.inl rfl)
  case spawnChildFd back id fd =>
    cases taken
    exact inv.sched_write pc rfl rfl rfl rfl rfl rfl (setThread_status fun seen => seen) inv.live (Or.inl rfl)
  case spawnParentFd back id fd =>
    cases taken
    exact inv.sched_write pc rfl rfl rfl rfl rfl rfl (setThread_status fun seen => seen) inv.live (Or.inl rfl)
  case spawnCreate back id =>
    split at taken <;> cases taken
    · exact inv.sched_create bounded
    · exact inv.sched_goto pc rfl (Or.inl rfl)
  case spawnAwake back id =>
    cases taken
    exact inv.sched_write pc rfl rfl rfl rfl rfl rfl (setThread_status fun seen => by cases seen) inv.live
      (Or.inr ⟨rfl, inv.spawned i (by rw [pc]; rfl)⟩)
  case adjLoad back =>
    cases taken
    exact inv.sched_goto pc rfl (Or.inr ⟨rfl, inv.spawned i (by rw [pc]; rfl)⟩)
  case adjCas back v =>
    have staffed := inv.spawned i (by rw [pc]; rfl)
    split at taken <;> cases taken
    · exact inv.sched_write pc rfl rfl rfl rfl rfl rfl keep (fun _ => staffed) (Or.inl rfl)
    · exact inv.sched_goto pc rfl (Or.inr ⟨rfl, staffed⟩)

end Sched

end Kinetic
