import Kinetic.Threadpool.RingInvariant

namespace Kinetic
open Ring Function

/-- The counters do not wrap. -/
def NotWrapping (p : Pool) : Prop := p.ring.reserveHead + 1 < sizeRange

section Sched
variable {cfg : ThreadpoolConfig} {fits : (setDefaults cfg).taskRingbufSize2 ≤ threadpoolMaxRingbufSize2}
variable {p p' : Pool} {phase : Nat → Phase Nat Nat} {i : Nat} {task : ThreadpoolTask}

theorem PoolInv.heads_ordered (inv : PoolInv cfg fits p phase) :
    p.ring.releaseHead ≤ p.ring.requestHead ∧ p.ring.requestHead ≤ p.ring.commitHead ∧
      p.ring.commitHead ≤ p.ring.reserveHead ∧ p.ring.reserveHead + 2 ≤ p.ring.releaseHead + cfg.ringbufSize :=
  ⟨inv.valid.release_le, inv.valid.request_le, inv.valid.commit_le, inv.valid.room⟩

/-- A successful reservation. -/
theorem PoolInv.reserve (inv : PoolInv cfg fits p phase) {rh back : Nat} (task : ThreadpoolTask)
    (wrap : NotWrapping p) (seen : rh ≤ p.ring.releaseHead)
    (room : sizeSub p.ring.reserveHead rh < cfg.ringbufSize - 1 - 1) :
    PoolInv cfg fits
      ({ p with ring := { p.ring with
          reserveHead := p.ring.reserveHead + 1, reserved := p.ring.reserved ++ [task] } }.goto i
        (.assertReserve task p.ring.reserveHead back))
      (update phase p.ring.reserveHead (.reserved i)) := by
  obtain ⟨release, request, commit, window⟩ := inv.heads_ordered
  have length := inv.reserved
  unfold NotWrapping at wrap
  rw [sizeSub_eq (by omega) (by omega)] at room
  have empty : phase p.ring.reserveHead = .free := rank_free.mp ((inv.valid.ranked _).1.mp (Nat.le_refl _))
  have kept (r : Nat) (before : r < p.ring.reserveHead) : (p.ring.reserved ++ [task])[r]? = p.ring.reserved[r]? :=
    List.getElem?_append_left (by omega)
  have last : (p.ring.reserved ++ [task])[p.ring.reserveHead]? = some task := by
    rw [← length, List.getElem?_append_right (Nat.le_refl _), Nat.sub_self]
    rfl
  have facts : SchedFacts cfg
      { p.ring with reserveHead := p.ring.reserveHead + 1, reserved := p.ring.reserved ++ [task] }
      (update phase p.ring.reserveHead (.reserved i)) i (.assertReserve task p.ring.reserveHead back) :=
    ⟨update_self .., last⟩
  refine inv.sched_step (inv.valid.reserve i (show p.ring.reserveHead + 2 < p.ring.releaseHead + cfg.ringbufSize by omega) kept)
    (later_advance (by rw [empty]; exact Nat.zero_le _) (by rw [empty]; rfl) (Nat.le_succ _) (Nat.le_refl _)
      (Nat.le_refl _) (Nat.le_refl _) rfl fun r t stored => ?_)
    rfl facts ?_ rfl (fun _ _ found => Or.inl found) rfl rfl rfl
  · obtain ⟨within, _⟩ := List.getElem?_eq_some_iff.mp stored
    exact (kept r (by omega)).trans stored
  · rw [← length]
    exact List.length_append

/-- The owner of a reserved index writes a field of its cell other than the mark. -/
theorem PoolInv.write_field (inv : PoolInv cfg fits p phase) {wh : Nat} {x : MarkedTask} {pc : SchedPc}
    (owns : phase wh = .reserved i ∧ p.ring.reserved[wh]? = some task) (mark : x.mark = (p.ring.at cfg wh).mark)
    (facts : SchedFacts cfg (p.ring.write cfg wh x) phase i pc) :
    PoolInv cfg fits ({ p with ring := p.ring.write cfg wh x }.goto i pc) phase := by
  have valid : RingValid cfg fits (p.ring.write cfg wh x) phase := by
    have written := inv.valid.write (x := x) owns.1 (by rw [TaskRing.at_eq] at mark; exact mark)
    unfold RingValid
    rw [TaskRing.write_tasks]
    exact written
  have later := inv.valid.later_write (x := x) (by rw [owns.1]; rfl : heldBy (phase wh) = some (.sched i))
    (Nat.le_refl (phase wh).rank)
  rw [update_eq_self] at later
  exact inv.sched_step valid later rfl facts inv.reserved rfl (fun _ _ found => Or.inl found) rfl rfl rfl

theorem PoolInv.write_mark (inv : PoolInv cfg fits p phase) {wh back : Nat}
    (owns : phase wh = .reserved i ∧ p.ring.reserved[wh]? = some task)
    (complete : (p.ring.at cfg wh).toThreadpoolTask = task) :
    PoolInv cfg fits
      ({ p with ring := p.ring.write cfg wh { p.ring.at cfg wh with mark := wh } }.goto i (.loadCommit back))
      (update phase wh .marked) := by
  have valid : RingValid cfg fits (p.ring.write cfg wh { p.ring.at cfg wh with mark := wh }) (update phase wh .marked) := by
    have written := inv.valid.mark (x := ⟨(p.ring.at cfg wh).toThreadpoolTask, wh⟩) owns.1 rfl
      (by rw [complete]; exact owns.2)
    unfold RingValid
    rw [TaskRing.write_tasks]
    exact written
  have later : Later cfg (.sched i) p.ring phase (p.ring.write cfg wh { p.ring.at cfg wh with mark := wh })
      (update phase wh .marked) :=
    inv.valid.later_write (by rw [owns.1]; rfl) (by rw [owns.1]; exact Nat.le_succ _)
  exact inv.sched_step valid later rfl trivial inv.reserved rfl (fun _ _ found => Or.inl found) rfl rfl rfl

theorem PoolInv.commit (inv : PoolInv cfg fits p phase) {back : Nat} (marked : 2 ≤ (phase p.ring.commitHead).rank) :
    PoolInv cfg fits
      ({ p with ring := { p.ring with commitHead := p.ring.commitHead + 1 } }.goto i (.assertRequest back)) phase :=
  inv.sched_step (inv.valid.commit marked)
    (later_heads (Nat.le_refl _) (Nat.le_succ _) (Nat.le_refl _) (Nat.le_refl _) rfl rfl) rfl trivial inv.reserved rfl
    (fun _ _ found => Or.inl found) rfl rfl rfl

/-- Every step of a thread in `Threadpool_Schedule` keeps the invariant; in particular its assertions hold. -/
theorem PoolInv.schedStep (inv : PoolInv cfg fits p phase) (wrap : NotWrapping p) {ok : Bool}
    (taken : p.schedStep cfg i ok = some p') : ∃ phase', PoolInv cfg fits p' phase' := by
  have facts := inv.sched i
  obtain ⟨release, request, commit, window⟩ := inv.heads_ordered
  have wrap' := wrap
  unfold NotWrapping at wrap'
  cases pc : p.sched i <;> rw [pc] at facts <;> simp only [Pool.schedStep, pc] at taken
  case idle res => cases taken
  case loadReserve task => cases taken; exact ⟨phase, inv.sched_goto trivial⟩
  case loadRelease task wh =>
    split at taken <;> cases taken
    · exact ⟨phase, inv.sched_goto trivial⟩
    · rename_i room
      exact ⟨phase, inv.sched_goto ⟨Nat.le_refl _, Nat.lt_of_not_le room⟩⟩
  case casReserve task wh rh =>
    split at taken <;> cases taken
    · rename_i here
      subst here
      exact ⟨_, inv.reserve task wrap facts.1 facts.2⟩
    · exact ⟨phase, inv.sched_goto trivial⟩
  case assertReserve task wh back =>
    cases taken
    have bounds : p.ring.commitHead ≤ wh ∧ wh < p.ring.reserveHead := inv.valid.reserved_bounds facts.1
    exact ⟨phase, inv.sched_goto ⟨facts, bounds.2, Nat.le_refl _⟩⟩
  case assertRelease task wh back reserve =>
    obtain ⟨owns, above, seen⟩ := facts
    have bounds : p.ring.commitHead ≤ wh ∧ wh < p.ring.reserveHead := inv.valid.reserved_bounds owns.1
    have holds : sizeSub reserve p.ring.releaseHead < cfg.ringbufSize - 1 := by
      rw [sizeSub_eq (by omega) (by omega)]
      omega
    rw [if_pos holds] at taken
    cases taken
    exact ⟨phase, inv.sched_goto owns⟩
  case writeTask task wh back =>
    cases taken
    exact ⟨phase, inv.write_field facts rfl ⟨facts, by rw [TaskRing.write_at]⟩⟩
  case writeCleanup task wh back =>
    cases taken
    exact ⟨phase, inv.write_field facts.1 rfl ⟨facts.1, by rw [TaskRing.write_at]; exact facts.2, by rw [TaskRing.write_at]⟩⟩
  case writeUdata task wh back =>
    cases taken
    refine ⟨phase, inv.write_field facts.1 rfl ⟨facts.1, ?_⟩⟩
    rw [TaskRing.write_at, facts.2.1, facts.2.2]
  case writeMark task wh back => cases taken; exact ⟨_, inv.write_mark facts.1 facts.2⟩
  case loadCommit back => cases taken; exact ⟨phase, inv.sched_goto (Nat.le_refl _)⟩
  case loadMark back ch =>
    split at taken <;> cases taken
    · exact ⟨phase, inv.sched_goto trivial⟩
    · rename_i mark
      have seen : ch = (p.ring.at cfg ch).mark := not_not.mp mark
      rw [TaskRing.at_eq] at seen
      exact ⟨phase, inv.sched_goto (inv.valid.marked_of_mark facts seen.symm)⟩
  case assertReserved back ch =>
    have free : p.ring.reserveHead ≤ ch ↔ _ := (inv.valid.ranked ch).1
    change 2 ≤ (phase ch).rank at facts
    rw [if_pos (by omega)] at taken
    cases taken
    exact ⟨phase, inv.sched_goto facts⟩
  case casCommit back ch =>
    split at taken <;> cases taken
    · rename_i here
      subst here
      exact ⟨phase, inv.commit facts⟩
    · exact ⟨phase, inv.sched_goto trivial⟩
  case assertRequest back => cases taken; exact ⟨phase, inv.sched_goto request⟩
  case assertCommit back q =>
    change q ≤ p.ring.commitHead at facts
    rw [if_pos facts] at taken
    cases taken
    exact ⟨phase, inv.sched_goto trivial⟩
  case notify back k => split at taken <;> cases taken <;> exact ⟨phase, inv.sched_goto trivial⟩
  case notifyStatus back k => split at taken <;> cases taken <;> exact ⟨phase, inv.sched_goto trivial⟩
  case notifyWrite back k =>
    cases taken
    exact ⟨phase, inv.sched_silent rfl rfl trivial (fun _ _ found => Or.inl found) rfl rfl rfl⟩
  case spawnTest back => split at taken <;> cases taken <;> exact ⟨phase, inv.sched_goto trivial⟩
  case spawnId back => split at taken <;> cases taken <;> exact ⟨phase, inv.sched_goto trivial⟩
  case spawnPipe back id =>
    split at taken <;> cases taken
    · exact ⟨phase, inv.sched_silent rfl rfl trivial (fun _ _ found => Or.inl found) rfl rfl rfl⟩
    · exact ⟨phase, inv.sched_goto trivial⟩
  case spawnChildFd back id fd =>
    cases taken
    exact ⟨phase, inv.sched_silent rfl rfl trivial (fun _ _ found => Or.inl found) rfl rfl rfl⟩
  case spawnParentFd back id fd =>
    cases taken
    exact ⟨phase, inv.sched_silent rfl rfl trivial (fun _ _ found => Or.inl found) rfl rfl rfl⟩
  case spawnCreate back id =>
    split at taken <;> cases taken
    · refine ⟨phase, inv.sched_silent rfl rfl trivial (fun j w found => ?_) rfl rfl rfl⟩
      by_cases same : j = p.created
      · subst j
        refine Or.inr ?_
        have new : some w = some ⟨id, 0, .start⟩ := found.symm.trans (update_self ..)
        cases new
        rfl
      · exact Or.inl ((update_of_ne same _ _).symm.trans found)
    · exact ⟨phase, inv.sched_goto trivial⟩
  case spawnAwake back id =>
    cases taken
    exact ⟨phase, inv.sched_silent rfl rfl trivial (fun _ _ found => Or.inl found) rfl rfl rfl⟩
  case adjLoad back => cases taken; exact ⟨phase, inv.sched_goto trivial⟩
  case adjCas back v =>
    split at taken <;> cases taken
    · exact ⟨phase, inv.sched_silent rfl rfl trivial (fun _ _ found => Or.inl found) rfl rfl rfl⟩
    · exact ⟨phase, inv.sched_goto trivial⟩

end Sched

section Work
variable {cfg : ThreadpoolConfig} {fits : (setDefaults cfg).taskRingbufSize2 ≤ threadpoolMaxRingbufSize2}
variable {p p' : Pool} {phase : Nat → Phase Nat Nat} {j : Nat} {w : Worker}

theorem PoolInv.claim (inv : PoolInv cfg fits p phase) (below : p.ring.requestHead < p.ring.commitHead) :
    PoolInv cfg fits
      ({ p with ring := { p.ring with requestHead := p.ring.requestHead + 1 },
                claims := p.claims ++ [(p.ring.requestHead, j)] }.setWorker j
        { w with pc := .assertMark p.ring.requestHead })
      (update phase p.ring.requestHead (.claimed j)) := by
  obtain ⟨_, committed, requested, _⟩ := inv.valid.ranked p.ring.requestHead
  have marked : (phase p.ring.requestHead).rank = 2 := by
    have early : ¬ p.ring.requestHead < p.ring.requestHead := Nat.lt_irrefl _
    have late : 2 ≤ (phase p.ring.requestHead).rank := committed below
    have open' : ¬ 3 ≤ (phase p.ring.requestHead).rank := fun third => early (requested.mpr third)
    omega
  have loose : heldBy (phase p.ring.requestHead) = none := by
    cases now : phase p.ring.requestHead with
    | marked => rfl
    | _ => rw [now] at marked; simp [Phase.rank] at marked
  refine inv.worker_step (inv.valid.claim j below)
    (later_advance (by rw [marked]; exact Nat.le_succ _) loose (Nat.le_refl _) (Nat.le_refl _) (Nat.le_succ _)
      (Nat.le_refl _) rfl fun _ _ stored => stored)
    rfl (update_self ..) rfl rfl ?_ rfl (fun _ member => Or.inl member) rfl
  have before := inv.claims
  simp only [Pool.setWorker, List.map_append, List.map_cons, List.map_nil, before]
  exact List.range_succ.symm

theorem PoolInv.write_released (inv : PoolInv cfg fits p phase) {rh : Nat} {task : ThreadpoolTask}
    (claimed : phase rh = .claimed j) (stored : p.ring.reserved[rh]? = some task) :
    PoolInv cfg fits
      ({ p with ring := p.ring.write cfg rh { p.ring.at cfg rh with mark := sizeNot rh } }.setWorker j
        { w with pc := .loadRelease rh task })
      (update phase rh .released) := by
  have bounds : p.ring.releaseHead ≤ rh ∧ rh < p.ring.requestHead := inv.valid.claimed_bounds claimed
  have valid : RingValid cfg fits (p.ring.write cfg rh { p.ring.at cfg rh with mark := sizeNot rh })
      (update phase rh .released) := by
    have written := inv.valid.consume (x := ⟨(p.ring.at cfg rh).toThreadpoolTask, sizeNot rh⟩) claimed rfl
    unfold RingValid
    rw [TaskRing.write_tasks]
    exact written
  have later : Later cfg (.worker j) p.ring phase (p.ring.write cfg rh { p.ring.at cfg rh with mark := sizeNot rh })
      (update phase rh .released) :=
    inv.valid.later_write (by rw [claimed]; rfl) (by rw [claimed]; exact Nat.le_succ _)
  exact inv.worker_step valid later rfl ⟨stored, Nat.lt_of_le_of_lt (Nat.zero_le _) bounds.2⟩ rfl rfl inv.claims rfl
    (fun _ member => Or.inl member) rfl

theorem PoolInv.release (inv : PoolInv cfg fits p phase) {rh : Nat} {task : ThreadpoolTask}
    (stored : p.ring.reserved[rh]? = some task) (claims : 0 < p.ring.requestHead)
    (released : phase p.ring.releaseHead = .released) :
    PoolInv cfg fits
      ({ p with ring := { p.ring with releaseHead := p.ring.releaseHead + 1 } }.setWorker j
        { w with pc := .assertReleased rh task p.ring.releaseHead }) phase := by
  have valid := inv.valid.release released
  have passed : p.ring.releaseHead < p.ring.commitHead := valid.release_le_commit
  exact inv.worker_step valid
    (later_heads (Nat.le_refl _) (Nat.le_refl _) (Nat.le_refl _) (Nat.le_succ _) rfl rfl) rfl ⟨stored, claims, passed⟩ rfl
    rfl inv.claims rfl (fun _ member => Or.inl member) rfl

/-- Every step of a worker keeps the invariant, provided its claim loop does not find the commit head at 0. -/
theorem PoolInv.workerStep (inv : PoolInv cfg fits p phase) (wrap : NotWrapping p)
    (nonzero : ∀ w, p.workers j = some w → w.pc = .claimCommit → p.ring.commitHead ≠ 0) {ok : Bool}
    (taken : p.workerStep cfg j ok = some p') : ∃ phase', PoolInv cfg fits p' phase' := by
  obtain ⟨release, request, commit, window⟩ := inv.heads_ordered
  unfold NotWrapping at wrap
  unfold Pool.workerStep at taken
  split at taken
  · cases taken
  · rename_i w found
    have facts := inv.worker j w found
    have first := nonzero w found
    cases pc : w.pc <;> rw [pc] at facts <;> simp only [pc] at taken
    case start => cases taken; exact ⟨phase, inv.worker_goto trivial⟩
    case testRequest => cases taken; exact ⟨phase, inv.worker_goto trivial⟩
    case testCommit q => split at taken <;> cases taken <;> exact ⟨phase, inv.worker_goto trivial⟩
    case sleepTest => split at taken <;> cases taken <;> exact ⟨phase, inv.worker_goto trivial⟩
    case sleepSet => cases taken; exact ⟨phase, inv.worker_silent rfl rfl trivial rfl rfl rfl rfl⟩
    case poll =>
      split at taken
      · split at taken <;> cases taken
        exact ⟨phase, inv.worker_goto trivial⟩
      · cases taken
        exact ⟨phase, inv.worker_goto trivial⟩
    case wakeTest => split at taken <;> cases taken <;> exact ⟨phase, inv.worker_goto trivial⟩
    case wakeSet => cases taken; exact ⟨phase, inv.worker_silent rfl rfl trivial rfl rfl rfl rfl⟩
    case read =>
      split at taken <;> cases taken
      exact ⟨phase, inv.worker_silent rfl rfl trivial rfl rfl rfl rfl⟩
    case claimCommit =>
      cases taken
      exact ⟨phase, inv.worker_goto ⟨Nat.pos_of_ne_zero (first pc), Nat.le_refl _⟩⟩
    case claimRequest ch =>
      obtain ⟨positive, seen⟩ := facts
      split at taken <;> cases taken
      · exact ⟨phase, inv.worker_goto trivial⟩
      · rename_i some
        rw [sizeSub_eq positive (by omega)] at some
        exact ⟨phase, inv.worker_goto (show p.ring.requestHead < p.ring.commitHead by omega)⟩
    case claimCas rh =>
      split at taken <;> cases taken
      · rename_i here
        subst here
        exact ⟨_, inv.claim facts⟩
      · exact ⟨phase, inv.worker_goto trivial⟩
    case assertMark rh =>
      have mark := (inv.valid.claimed_holds facts).1
      rw [if_pos (by rw [TaskRing.at_eq]; exact mark)] at taken
      cases taken
      exact ⟨phase, inv.worker_goto facts⟩
    case copyTask rh =>
      cases taken
      refine ⟨phase, inv.worker_goto ⟨facts, _, (inv.valid.claimed_holds facts).2, ?_⟩⟩
      rw [TaskRing.at_eq]
      rfl
    case copyCleanup rh task =>
      obtain ⟨claimed, t, stored, same⟩ := facts
      cases taken
      refine ⟨phase, inv.worker_goto ⟨claimed, t, stored, same, ?_⟩⟩
      have content := Option.some.inj (stored.symm.trans (inv.valid.claimed_holds claimed).2)
      rw [TaskRing.at_eq, content]
      rfl
    case copyUdata rh task cleanup =>
      obtain ⟨claimed, t, stored, rfl, rfl⟩ := facts
      cases taken
      refine ⟨phase, inv.worker_goto ⟨claimed, ?_⟩⟩
      have content := Option.some.inj (stored.symm.trans (inv.valid.claimed_holds claimed).2)
      rw [TaskRing.at_eq, stored, content]
      rfl
    case releaseMark rh task => cases taken; exact ⟨_, inv.write_released facts.1 facts.2⟩
    case loadRelease rh task => cases taken; exact ⟨phase, inv.worker_goto ⟨facts.1, facts.2, Nat.le_refl _⟩⟩
    case loadReleased rh task relh =>
      obtain ⟨stored, claims, seen⟩ := facts
      split at taken <;> cases taken
      · exact ⟨phase, inv.worker_goto stored⟩
      · rename_i mark
        have complement : (p.ring.at cfg relh).mark = sizeNot relh := not_not.mp mark
        rw [TaskRing.at_eq] at complement
        have released := inv.valid.released_of_mark seen claims (show relh ≤ sizeRange - 1 by omega) complement
        exact ⟨phase, inv.worker_goto ⟨stored, claims, released⟩⟩
    case casRelease rh task relh =>
      split at taken <;> cases taken
      · rename_i here
        subst here
        exact ⟨phase, inv.release facts.1 facts.2.1 facts.2.2⟩
      · exact ⟨phase, inv.worker_goto ⟨facts.1, facts.2.1⟩⟩
    case assertReleased rh task relh =>
      rw [if_pos facts.2.2] at taken
      cases taken
      exact ⟨phase, inv.worker_goto ⟨facts.1, facts.2.1⟩⟩
    case run rh task =>
      cases taken
      refine ⟨phase, inv.worker_step inv.valid (.refl ..) rfl trivial rfl rfl inv.claims rfl (fun e member => ?_) rfl⟩
      rcases List.mem_append.mp member with old | new
      · exact Or.inl old
      · cases List.mem_singleton.mp new
        exact Or.inr ⟨task, facts, rfl, rfl⟩

end Work

end Kinetic
