import Kinetic.Listener.SocketTable

namespace Kinetic
open Function (update)

/-- A tracked socket: its poll entry and its connection. -/
def SocketTable.entry (t : SocketTable) (i : Nat) : PollFd × Nat := (t.fds i, t.fdInfo i)

/-- The connection is among the tracked ones. -/
def SocketTable.tracks (t : SocketTable) (ci : Nat) : Prop := ∃ i, i < t.trackedFds ∧ t.fdInfo i = ci

/-- The active sockets come first, each socket is tracked once and under its own number, and only sockets with an error are
inactive. -/
structure SocketsInv (t : SocketTable) (conns : Connections) : Prop where
  inactive : t.inactiveFds ≤ t.trackedFds
  pollin : ∀ i, i < t.trackedFds → ((t.fds i).pollin = true ↔ i < t.trackedFds - t.inactiveFds)
  fd : ∀ i, i < t.trackedFds → (t.fds i).fd = (conns.info (t.fdInfo i)).fd
  once : ∀ i j, i < t.trackedFds → j < t.trackedFds → (t.fds i).fd = (t.fds j).fd → i = j
  errored : ∀ i, i < t.trackedFds → (t.fds i).pollin = false → (conns.info (t.fdInfo i)).error.negative = true

theorem SocketsInv.new (conns : Connections) : SocketsInv .new conns := by
  refine ⟨Nat.le_refl _, ?_, ?_, ?_, ?_⟩
  · intro i below
    exact absurd below (Nat.not_lt_zero i)
  · intro i below
    exact absurd below (Nat.not_lt_zero i)
  · intro i j below
    exact absurd below (Nat.not_lt_zero i)
  · intro i below
    exact absurd below (Nat.not_lt_zero i)

section Changes
variable {t t' : SocketTable} {conns conns' : Connections} {ci : Nat} {fd : Int}

/-- `POLLIN` is off for the sockets behind the active ones. -/
theorem SocketsInv.pollin_off (inv : SocketsInv t conns) {i : Nat} (below : i < t.trackedFds)
    (behind : t.trackedFds - t.inactiveFds ≤ i) : (t.fds i).pollin = false := by
  cases pollin : (t.fds i).pollin with
  | false => rfl
  | true =>
    have inFront := (inv.pollin i below).mp pollin
    omega

/-- The table does not depend on more of a connection than its number and whether it has an error. -/
theorem SocketsInv.connections (inv : SocketsInv t conns)
    (same : ∀ ci, t.tracks ci → (conns'.info ci).fd = (conns.info ci).fd ∧
      ((conns.info ci).error.negative = true → (conns'.info ci).error.negative = true)) : SocketsInv t conns' := by
  refine ⟨inv.inactive, inv.pollin, ?_, inv.once, ?_⟩
  · intro i below
    rw [(same (t.fdInfo i) ⟨i, below, rfl⟩).1]
    exact inv.fd i below
  · intro i below off
    exact (same (t.fdInfo i) ⟨i, below, rfl⟩).2 (inv.errored i below off)

/-- A table whose entries are those of another one, each in a new place, at most once. -/
structure Rearranged (t t' : SocketTable) (place : Nat → Nat) : Prop where
  below : ∀ j, j < t'.trackedFds → place j < t.trackedFds
  apart : ∀ i j, i < t'.trackedFds → j < t'.trackedFds → place i = place j → i = j
  fd : ∀ j, j < t'.trackedFds → (t'.fds j).fd = (t.fds (place j)).fd
  info : ∀ j, j < t'.trackedFds → t'.fdInfo j = t.fdInfo (place j)

/-- Entries that are moved around keep the invariant, if the active ones are again in front. -/
theorem SocketsInv.arrange (inv : SocketsInv t conns) {place : Nat → Nat} (arranged : Rearranged t t' place)
    (inactive : t'.inactiveFds ≤ t'.trackedFds)
    (pollin : ∀ j, j < t'.trackedFds → ((t'.fds j).pollin = true ↔ j < t'.trackedFds - t'.inactiveFds))
    (errored : ∀ j, j < t'.trackedFds → (t'.fds j).pollin = false →
      (t.fds (place j)).pollin = false ∨ (conns.info (t.fdInfo (place j))).error.negative = true) :
    SocketsInv t' conns := by
  refine ⟨inactive, pollin, ?_, ?_, ?_⟩
  · intro j below
    rw [arranged.fd j below, arranged.info j below]
    exact inv.fd (place j) (arranged.below j below)
  · intro i j belowI belowJ same
    rw [arranged.fd i belowI, arranged.fd j belowJ] at same
    exact arranged.apart i j belowI belowJ (inv.once _ _ (arranged.below i belowI) (arranged.below j belowJ) same)
  · intro j below off
    rw [arranged.info j below]
    rcases errored j below off with before | error
    · exact inv.errored (place j) (arranged.below j below) before
    · exact error

theorem Rearranged.tracks {place : Nat → Nat} (arranged : Rearranged t t' place) (tracked : t'.tracks ci) : t.tracks ci := by
  obtain ⟨j, below, rfl⟩ := tracked
  exact ⟨place j, arranged.below j below, (arranged.info j below).symm⟩

theorem SocketTable.swap_fds (t : SocketTable) (a b i : Nat) :
    (t.swap a b).fds i = if i = a then t.fds b else if i = b then t.fds a else t.fds i := by
  simp only [SocketTable.swap, Function.update_apply]

theorem SocketTable.swap_fdInfo (t : SocketTable) (a b i : Nat) :
    (t.swap a b).fdInfo i = if i = a then t.fdInfo b else if i = b then t.fdInfo a else t.fdInfo i := by
  simp only [SocketTable.swap, Function.update_apply]
  split
  · rename_i atB
    split
    · rename_i atA
      rw [← atA, ← atB]
    · rfl
  · rfl

/-- The table after a new connection was taken in: the new one is behind the active ones, and the first inactive one is last. -/
theorem SocketTable.track_entry (t : SocketTable) (ci : Nat) (fd : Int) (inactive : t.inactiveFds ≤ t.trackedFds) (i : Nat) :
    (t.track ci fd).entry i =
      if i = t.trackedFds - t.inactiveFds then (⟨fd, true⟩, ci)
      else if i = t.trackedFds then t.entry (t.trackedFds - t.inactiveFds) else t.entry i := by
  unfold SocketTable.track SocketTable.entry
  dsimp only
  by_cases some : 0 < t.inactiveFds
  · have before : t.trackedFds - t.inactiveFds ≠ t.trackedFds := by omega
    rw [if_pos some, SocketTable.swap_fds, SocketTable.swap_fdInfo]
    by_cases first : i = t.trackedFds - t.inactiveFds
    · simp [first, before]
    · by_cases last : i = t.trackedFds
      · simp [last, before, before.symm]
      · simp [first, last]
  · have none : t.trackedFds - t.inactiveFds = t.trackedFds := by omega
    rw [if_neg some, none]
    by_cases last : i = t.trackedFds
    · simp [last]
    · simp [last]

theorem SocketTable.track_trackedFds (t : SocketTable) (ci : Nat) (fd : Int) :
    (t.track ci fd).trackedFds = t.trackedFds + 1 := rfl

theorem SocketTable.track_inactiveFds (t : SocketTable) (ci : Nat) (fd : Int) :
    (t.track ci fd).inactiveFds = t.inactiveFds := by
  simp only [SocketTable.track]
  split <;> rfl

/-- The entries of the table after a new connection was taken in, one by one. -/
theorem SocketTable.track_cases (t : SocketTable) (ci : Nat) (fd : Int) (inactive : t.inactiveFds ≤ t.trackedFds) {i : Nat}
    (below : i < t.trackedFds + 1) :
    i = t.trackedFds - t.inactiveFds ∧ (t.track ci fd).fds i = ⟨fd, true⟩ ∧ (t.track ci fd).fdInfo i = ci ∨
      ∃ j, j < t.trackedFds ∧ (t.track ci fd).fds i = t.fds j ∧ (t.track ci fd).fdInfo i = t.fdInfo j ∧
        (i = j ∧ i ≠ t.trackedFds - t.inactiveFds ∨ i = t.trackedFds ∧ j = t.trackedFds - t.inactiveFds) := by
  have entry := t.track_entry ci fd inactive i
  by_cases first : i = t.trackedFds - t.inactiveFds
  · rw [if_pos first] at entry
    exact .inl ⟨first, congrArg Prod.fst entry, congrArg Prod.snd entry⟩
  · rw [if_neg first] at entry
    by_cases last : i = t.trackedFds
    · rw [if_pos last] at entry
      exact .inr ⟨_, by omega, congrArg Prod.fst entry, congrArg Prod.snd entry, .inr ⟨last, rfl⟩⟩
    · rw [if_neg last] at entry
      exact .inr ⟨i, by omega, congrArg Prod.fst entry, congrArg Prod.snd entry, .inl ⟨rfl, first⟩⟩

theorem SocketsInv.track (inv : SocketsInv t conns) (new : ∀ i, i < t.trackedFds → (t.fds i).fd ≠ fd)
    (info : (conns.info ci).fd = fd) : SocketsInv (t.track ci fd) conns := by
  have inactive := inv.inactive
  refine ⟨?_, ?_, ?_, ?_, ?_⟩
  · rw [SocketTable.track_inactiveFds, SocketTable.track_trackedFds]
    omega
  · intro i below
    rw [SocketTable.track_inactiveFds, SocketTable.track_trackedFds]
    rw [SocketTable.track_trackedFds] at below
    rcases t.track_cases ci fd inactive below with ⟨first, pfd, _⟩ | ⟨j, belowJ, pfd, _, place⟩
    · rw [pfd]
      simp only [true_iff]
      omega
    · rw [pfd, inv.pollin j belowJ]
      omega
  · intro i below
    rcases t.track_cases ci fd inactive below with ⟨_, pfd, here⟩ | ⟨j, belowJ, pfd, here, _⟩
    · rw [pfd, here, info]
    · rw [pfd, here]
      exact inv.fd j belowJ
  · intro i i' below below' same
    rcases t.track_cases ci fd inactive below with ⟨first, pfd, _⟩ | ⟨j, belowJ, pfd, _, place⟩
    · rcases t.track_cases ci fd inactive below' with ⟨first', _, _⟩ | ⟨j', belowJ', pfd', _, _⟩
      · rw [first, first']
      · rw [pfd, pfd'] at same
        exact absurd same.symm (new j' belowJ')
    · rcases t.track_cases ci fd inactive below' with ⟨_, pfd', _⟩ | ⟨j', belowJ', pfd', _, place'⟩
      · rw [pfd, pfd'] at same
        exact absurd same (new j belowJ)
      · rw [pfd, pfd'] at same
        have equal := inv.once j j' belowJ belowJ' same
        omega
  · intro i below off
    rcases t.track_cases ci fd inactive below with ⟨_, pfd, _⟩ | ⟨j, belowJ, pfd, here, _⟩
    · rw [pfd] at off
      cases off
    · rw [pfd] at off
      rw [here]
      exact inv.errored j belowJ off

/-- The new connection is tracked beside those that were. -/
theorem SocketTable.track_tracks (inactive : t.inactiveFds ≤ t.trackedFds) {x : Nat} :
    (t.track ci fd).tracks x ↔ t.tracks x ∨ x = ci := by
  constructor
  · rintro ⟨i, below, rfl⟩
    rcases t.track_cases ci fd inactive below with ⟨_, _, here⟩ | ⟨j, belowJ, _, here, _⟩
    · exact .inr here
    · exact .inl ⟨j, belowJ, here.symm⟩
  · rintro (⟨i, below, rfl⟩ | rfl)
    · by_cases first : i = t.trackedFds - t.inactiveFds
      · refine ⟨t.trackedFds, Nat.lt_succ_self _, ?_⟩
        have entry := t.track_entry ci fd inactive t.trackedFds
        rw [if_neg (by omega), if_pos rfl, ← first] at entry
        exact congrArg Prod.snd entry
      · refine ⟨i, Nat.lt_succ_of_lt below, ?_⟩
        have entry := t.track_entry ci fd inactive i
        rw [if_neg first, if_neg (by omega)] at entry
        exact congrArg Prod.snd entry
    · refine ⟨t.trackedFds - t.inactiveFds, by rw [SocketTable.track_trackedFds]; omega, ?_⟩
      have entry := t.track_entry x fd inactive (t.trackedFds - t.inactiveFds)
      rw [if_pos rfl] at entry
      exact congrArg Prod.snd entry

/-- The four ends of `add_socket`. -/
inductive Added (env : AddEnv) (t : SocketTable) (conns : Connections) (ci : Nat) : SocketTable → Connections → Prop
  | full : t.trackedFds = maxFds → Added env t conns ci t conns
  | present (i : Nat) : i < t.trackedFds → (t.fds i).fd = (conns.info ci).fd → Added env t conns ci t (conns.free ci)
  | added (size : Nat) : t.trackedFds ≠ maxFds → (∀ i, i < t.trackedFds → (t.fds i).fd ≠ (conns.info ci).fd) →
      Added env t conns ci { t.track ci (conns.info ci).fd with readBufSize := size }
        (conns.set ci { conns.info ci with toReadSize := env.nextRead })
  | notGrown : t.trackedFds ≠ maxFds → (∀ i, i < t.trackedFds → (t.fds i).fd ≠ (conns.info ci).fd) →
      t.readBufSize ≤ env.nextRead → env.grown = false →
      Added env t conns ci (t.track ci (conns.info ci).fd)
        ((conns.set ci { conns.info ci with toReadSize := env.nextRead }).free ci)

theorem addSocket_cases {env : AddEnv} (run : addSocket env t conns ci = some (t', conns')) : Added env t conns ci t' conns' := by
  unfold addSocket at run
  dsimp only at run
  split at run
  · rename_i full
    cases run
    exact .full full
  · rename_i room
    split at run
    · rename_i found
      cases run
      obtain ⟨i, below, same⟩ := List.any_eq_true.mp found
      exact .present i (List.mem_range.mp below) (of_decide_eq_true same)
    · rename_i missing
      have absent (i : Nat) (below : i < t.trackedFds) : (t.fds i).fd ≠ (conns.info ci).fd := by
        intro same
        exact missing (List.any_eq_true.mpr ⟨i, List.mem_range.mpr below, decide_eq_true same⟩)
      split at run
      · split at run
        · cases run
          exact .added _ room absent
        · rename_i short
          split at run
          · cases run
            exact .added env.nextRead room absent
          · rename_i failed
            cases run
            exact .notGrown room absent (Nat.le_of_not_lt short) (by simpa using failed)
      · cases run

/-- Where the entries in front of the last one come from after the removal of the active socket `id`. -/
def activePlace (id lastActive last j : Nat) : Nat := if j = lastActive then last else if j = id then lastActive else j

/-- Where the entries in front of the last one come from after the removal of the inactive socket `id`. -/
def inactivePlace (id last j : Nat) : Nat := if j = id then last else j

/-- The table after the removal of a tracked socket. -/
structure RemovedAt (t t' : SocketTable) (id : Nat) (place : Nat → Nat) : Prop where
  tracked : t'.trackedFds = t.trackedFds - 1
  inactive : t'.inactiveFds = if (t.fds id).pollin then t.inactiveFds else t.inactiveFds - 1
  fds : ∀ j, j < t'.trackedFds → t'.fds j = t.fds (place j)
  info : ∀ j, j < t'.trackedFds → t'.fdInfo j = t.fdInfo (place j)

/-- The entry of `remove_socket` moves to the end: an active one by way of the last active place. -/
theorem removeAt_spec (inv : SocketsInv t conns) {id : Nat} (below : id < t.trackedFds) (run : t.removeAt id = some t') :
    RemovedAt t t' id (if (t.fds id).pollin then activePlace id (t.trackedFds - t.inactiveFds - 1) (t.trackedFds - 1)
      else inactivePlace id (t.trackedFds - 1)) := by
  have inactive := inv.inactive
  have front := inv.pollin id below
  unfold SocketTable.removeAt at run
  dsimp only at run
  split at run
  · rename_i single
    cases run
    refine ⟨rfl, rfl, ?_, ?_⟩
    · intro j (belowJ : j < t.trackedFds - 1)
      omega
    · intro j (belowJ : j < t.trackedFds - 1)
      omega
  · rename_i several
    split at run
    · rename_i notLast
      obtain ⟨active, other⟩ := notLast
      rw [if_pos active]
      split at run
      · cases run
        by_cases inner : t.trackedFds - t.inactiveFds - 1 < t.trackedFds - 1
        · simp only [if_pos inner]
          refine ⟨rfl, by simp only [active, if_true]; rfl, ?_, ?_⟩
          · intro j (belowJ : j < t.trackedFds - 1)
            simp only [SocketTable.swap_fds, activePlace]
            grind
          · intro j (belowJ : j < t.trackedFds - 1)
            simp only [SocketTable.swap_fdInfo, activePlace]
            grind
        · simp only [if_neg inner]
          refine ⟨rfl, by simp only [active, if_true]; rfl, ?_, ?_⟩
          · intro j (belowJ : j < t.trackedFds - 1)
            simp only [SocketTable.swap_fds, activePlace]
            grind
          · intro j (belowJ : j < t.trackedFds - 1)
            simp only [SocketTable.swap_fdInfo, activePlace]
            grind
      · cases run
    · rename_i atEnd
      cases run
      have moved (j : Nat) (belowJ : j < t.trackedFds - 1) :
          (if (t.fds id).pollin then activePlace id (t.trackedFds - t.inactiveFds - 1) (t.trackedFds - 1)
            else inactivePlace id (t.trackedFds - 1)) j = if j = id then t.trackedFds - 1 else j := by
        split
        · rename_i active
          have same : id = t.trackedFds - t.inactiveFds - 1 := Classical.not_not.mp fun other => atEnd ⟨active, other⟩
          simp only [activePlace, ← same]
          split <;> rfl
        · rfl
      by_cases inner : id < t.trackedFds - 1
      · simp only [if_pos inner]
        refine ⟨rfl, rfl, ?_, ?_⟩
        · intro j (belowJ : j < t.trackedFds - 1)
          rw [moved j belowJ]
          simp only [SocketTable.swap_fds]
          grind
        · intro j (belowJ : j < t.trackedFds - 1)
          rw [moved j belowJ]
          simp only [SocketTable.swap_fdInfo]
          grind
      · simp only [if_neg inner]
        refine ⟨rfl, rfl, ?_, ?_⟩
        · intro j (belowJ : j < t.trackedFds - 1)
          have apart : j ≠ id := by omega
          rw [moved j belowJ, if_neg apart]
        · intro j (belowJ : j < t.trackedFds - 1)
          have apart : j ≠ id := by omega
          rw [moved j belowJ, if_neg apart]

/-- The places of the entries that are left. -/
structure LeavesOut (id count : Nat) (place : Nat → Nat) : Prop where
  below : ∀ j, j < count - 1 → place j < count
  apart : ∀ i j, i < count - 1 → j < count - 1 → place i = place j → i = j
  other : ∀ j, j < count - 1 → place j ≠ id
  onto : ∀ i, i < count → i ≠ id → ∃ j, j < count - 1 ∧ place j = i

theorem activePlace_leavesOut {id lastActive count : Nat} (first : id ≤ lastActive) (below : lastActive < count) :
    LeavesOut id count (activePlace id lastActive (count - 1)) := by
  refine ⟨?_, ?_, ?_, ?_⟩
  · intro j belowJ
    unfold activePlace
    split
    · omega
    · split <;> omega
  · intro i j belowI belowJ same
    unfold activePlace at same
    grind
  · intro j belowJ
    unfold activePlace
    split
    · omega
    · split <;> omega
  · intro i belowI other
    by_cases last : i = count - 1
    · by_cases end_ : lastActive = count - 1
      · refine ⟨id, by omega, ?_⟩
        unfold activePlace
        grind
      · refine ⟨lastActive, by omega, ?_⟩
        unfold activePlace
        rw [if_pos rfl, last]
    · by_cases atActive : i = lastActive
      · refine ⟨id, by omega, ?_⟩
        unfold activePlace
        grind
      · refine ⟨i, by omega, ?_⟩
        unfold activePlace
        rw [if_neg atActive, if_neg other]

theorem inactivePlace_leavesOut {id count : Nat} (below : id < count) : LeavesOut id count (inactivePlace id (count - 1)) := by
  refine ⟨?_, ?_, ?_, ?_⟩
  · intro j belowJ
    unfold inactivePlace
    split <;> omega
  · intro i j belowI belowJ same
    unfold inactivePlace at same
    grind
  · intro j belowJ
    unfold inactivePlace
    split <;> omega
  · intro i belowI other
    by_cases last : i = count - 1
    · refine ⟨id, by omega, ?_⟩
      unfold inactivePlace
      rw [if_pos rfl, last]
    · refine ⟨i, by omega, ?_⟩
      unfold inactivePlace
      rw [if_neg other]

theorem RemovedAt.arranged {id : Nat} {place : Nat → Nat} (removed : RemovedAt t t' id place)
    (leaves : LeavesOut id t.trackedFds place) : Rearranged t t' place := by
  have tracked := removed.tracked
  refine ⟨?_, ?_, ?_, removed.info⟩
  · intro j below
    exact leaves.below j (tracked ▸ below)
  · intro i j belowI belowJ same
    exact leaves.apart i j (tracked ▸ belowI) (tracked ▸ belowJ) same
  · intro j below
    rw [removed.fds j below]

theorem RemovedAt.tracks {id : Nat} {place : Nat → Nat} (removed : RemovedAt t t' id place)
    (leaves : LeavesOut id t.trackedFds place) (x : Nat) :
    t'.tracks x ↔ ∃ i, i < t.trackedFds ∧ i ≠ id ∧ t.fdInfo i = x := by
  have tracked := removed.tracked
  constructor
  · rintro ⟨j, below, rfl⟩
    have within : j < t.trackedFds - 1 := tracked ▸ below
    exact ⟨place j, leaves.below j within, leaves.other j within, (removed.info j below).symm⟩
  · rintro ⟨i, below, other, rfl⟩
    obtain ⟨j, belowJ, rfl⟩ := leaves.onto i below other
    have within : j < t'.trackedFds := tracked.symm ▸ belowJ
    exact ⟨j, within, removed.info j within⟩

/-- After `remove_socket` has found its socket, all others are tracked as before. -/
theorem SocketsInv.removeAt (inv : SocketsInv t conns) {id : Nat} (below : id < t.trackedFds) (run : t.removeAt id = some t') :
    SocketsInv t' conns ∧ ∀ x, t'.tracks x ↔ ∃ i, i < t.trackedFds ∧ i ≠ id ∧ t.fdInfo i = x := by
  have removed := removeAt_spec inv below run
  have inactive := inv.inactive
  have front := inv.pollin id below
  by_cases active : (t.fds id).pollin = true
  · simp only [active, if_true] at removed
    have inFront : id < t.trackedFds - t.inactiveFds := front.mp active
    have leaves : LeavesOut id t.trackedFds (activePlace id (t.trackedFds - t.inactiveFds - 1) (t.trackedFds - 1)) :=
      activePlace_leavesOut (by omega) (by omega)
    have tracked := removed.tracked
    have left := removed.inactive
    simp only [active, if_true] at left
    refine ⟨inv.arrange (removed.arranged leaves) (by omega) ?_ ?_, removed.tracks leaves⟩
    · intro j belowJ
      have within : j < t.trackedFds - 1 := by omega
      rw [removed.fds j belowJ, inv.pollin _ (leaves.below j within)]
      unfold activePlace
      split
      · omega
      · split <;> omega
    · intro j belowJ off
      rw [removed.fds j belowJ] at off
      exact .inl off
  · simp only [active, Bool.false_eq_true, if_false] at removed
    have behind : ¬ id < t.trackedFds - t.inactiveFds := fun inFront => active (front.mpr inFront)
    have leaves : LeavesOut id t.trackedFds (inactivePlace id (t.trackedFds - 1)) := inactivePlace_leavesOut below
    have tracked := removed.tracked
    have left := removed.inactive
    simp only [active, Bool.false_eq_true, if_false] at left
    refine ⟨inv.arrange (removed.arranged leaves) (by omega) ?_ ?_, removed.tracks leaves⟩
    · intro j belowJ
      have within : j < t.trackedFds - 1 := by omega
      rw [removed.fds j belowJ, inv.pollin _ (leaves.below j within)]
      unfold inactivePlace
      split <;> omega
    · intro j belowJ off
      rw [removed.fds j belowJ] at off
      exact .inl off

/-- `remove_socket` forgets the connections with the number, and no others. -/
theorem SocketsInv.removeSocket (inv : SocketsInv t conns) (run : Kinetic.removeSocket t fd = some t') :
    SocketsInv t' conns ∧ ∀ x, t'.tracks x ↔ t.tracks x ∧ (conns.info x).fd ≠ fd := by
  unfold Kinetic.removeSocket at run
  split at run
  · rename_i missing
    cases run
    refine ⟨inv, fun x => ⟨?_, And.left⟩⟩
    rintro ⟨i, below, rfl⟩
    refine ⟨⟨i, below, rfl⟩, ?_⟩
    rw [← inv.fd i below]
    have none := List.find?_eq_none.mp missing i (List.mem_range.mpr below)
    simpa using none
  · rename_i id found
    have below : id < t.trackedFds := List.mem_range.mp (List.mem_of_find?_eq_some found)
    have own : (t.fds id).fd = fd := by simpa using List.find?_some found
    obtain ⟨inv', tracks⟩ := inv.removeAt below run
    refine ⟨inv', fun x => ?_⟩
    rw [tracks]
    constructor
    · rintro ⟨i, belowI, other, rfl⟩
      refine ⟨⟨i, belowI, rfl⟩, ?_⟩
      rw [← inv.fd i belowI]
      intro same
      exact other (inv.once i id belowI below (same.trans own.symm))
    · rintro ⟨⟨i, belowI, rfl⟩, apart⟩
      refine ⟨i, belowI, ?_, rfl⟩
      rintro rfl
      rw [← inv.fd i belowI] at apart
      exact apart own

/-- Where the entries come from after those of `id` and `last` were exchanged. -/
def exchanged (id last j : Nat) : Nat := if j = last then id else if j = id then last else j

theorem exchanged_exchanged (id last j : Nat) : exchanged id last (exchanged id last j) = j := by
  unfold exchanged
  grind

/-- The table after an active socket was taken out of the active ones. -/
structure Deactivated (t t' : SocketTable) (id last : Nat) : Prop where
  tracked : t'.trackedFds = t.trackedFds
  inactive : t'.inactiveFds = t.inactiveFds + 1
  fds : ∀ j, t'.fds j = if j = last then { t.fds id with pollin := false } else t.fds (exchanged id last j)
  info : ∀ j, t'.fdInfo j = t.fdInfo (exchanged id last j)

theorem moveErrored_spec {id : Nat} (run : t.moveErrored conns id = some t') :
    t' = t ∨ (conns.info (t.fdInfo id)).error.negative = true ∧ Deactivated t t' id (t.trackedFds - t.inactiveFds - 1) := by
  unfold SocketTable.moveErrored at run
  dsimp only at run
  split at run
  · rename_i errs
    split at run
    · cases run
    · split at run
      · cases run
        refine .inr ⟨errs.1, ?_⟩
        by_cases same : id = t.trackedFds - t.inactiveFds - 1
        · simp only [← same, ne_eq, not_true_eq_false, if_false]
          refine ⟨rfl, rfl, fun j => ?_, fun j => ?_⟩
          · simp only [exchanged, Function.update_apply]
            grind
          · simp only [exchanged]
            grind
        · simp only [same, ne_eq, not_false_eq_true, if_true]
          refine ⟨rfl, rfl, fun j => ?_, fun j => ?_⟩
          · simp only [exchanged, SocketTable.swap_fds, Function.update_apply]
            grind
          · simp only [exchanged, SocketTable.swap_fdInfo]
            grind
      · cases run
  · cases run
    exact .inl rfl

theorem moveErrored_tracked {id : Nat} (run : t.moveErrored conns id = some t') : t'.trackedFds = t.trackedFds := by
  rcases moveErrored_spec run with rfl | ⟨_, deactivated⟩
  · rfl
  · exact deactivated.tracked

/-- An active socket with an error goes behind the active ones, and all connections stay tracked. -/
theorem SocketsInv.moveErrored (inv : SocketsInv t conns) {id : Nat} (active : id < t.trackedFds - t.inactiveFds)
    (run : t.moveErrored conns id = some t') :
    SocketsInv t' conns ∧ (∀ x, t'.tracks x ↔ t.tracks x) := by
  have inactive := inv.inactive
  rcases moveErrored_spec run with rfl | ⟨error, moved⟩
  · exact ⟨inv, fun _ => Iff.rfl⟩
  · have tracked := moved.tracked
    have more := moved.inactive
    have within (j : Nat) (below : j < t.trackedFds) :
        exchanged id (t.trackedFds - t.inactiveFds - 1) j < t.trackedFds := by
      unfold exchanged
      split
      · omega
      · split <;> omega
    have arranged : Rearranged t t' (exchanged id (t.trackedFds - t.inactiveFds - 1)) := by
      refine ⟨?_, ?_, ?_, fun j _ => moved.info j⟩
      · intro j below
        exact within j (tracked ▸ below)
      · intro i j _ _ same
        have back := congrArg (exchanged id (t.trackedFds - t.inactiveFds - 1)) same
        rw [exchanged_exchanged, exchanged_exchanged] at back
        exact back
      · intro j below
        rw [moved.fds j]
        split
        · rename_i last
          rw [exchanged, if_pos last]
        · rfl
    refine ⟨inv.arrange arranged (by omega) ?_ ?_, fun x => ⟨arranged.tracks, ?_⟩⟩
    · intro j below
      have belowJ : j < t.trackedFds := by omega
      rw [moved.fds j]
      split
      · simp only [Bool.false_eq_true, false_iff]
        omega
      · rw [inv.pollin _ (within j belowJ)]
        unfold exchanged
        split
        · omega
        · split <;> omega
    · intro j below off
      rw [moved.fds j] at off
      split at off
      · rename_i last
        rw [exchanged, if_pos last]
        exact .inr error
      · exact .inl off
    · rintro ⟨i, below, rfl⟩
      refine ⟨exchanged id (t.trackedFds - t.inactiveFds - 1) i, tracked.symm ▸ within i below, ?_⟩
      rw [moved.info, exchanged_exchanged]

theorem SocketsInv.moveErroredFrom {n id : Nat} (inv : SocketsInv t conns) (run : Kinetic.moveErroredFrom conns n id t = some t') :
    SocketsInv t' conns ∧ ∀ x, t'.tracks x ↔ t.tracks x := by
  induction n generalizing id t with
  | zero =>
    cases run
    exact ⟨inv, fun _ => Iff.rfl⟩
  | succ n ih =>
    unfold Kinetic.moveErroredFrom at run
    split at run
    · rename_i active
      obtain ⟨next, moved, rest⟩ := Option.bind_eq_some_iff.mp run
      obtain ⟨inv', same⟩ := inv.moveErrored active moved
      obtain ⟨inv'', same'⟩ := ih inv' rest
      exact ⟨inv'', fun x => (same' x).trans (same x)⟩
    · cases run
      exact ⟨inv, fun _ => Iff.rfl⟩

theorem SocketsInv.moveErroredActiveSocketsToEnd (inv : SocketsInv t conns)
    (run : Kinetic.moveErroredActiveSocketsToEnd t conns = some t') :
    SocketsInv t' conns ∧ ∀ x, t'.tracks x ↔ t.tracks x := by
  unfold Kinetic.moveErroredActiveSocketsToEnd at run
  split at run
  · obtain ⟨moved, loop, rfl⟩ := Option.map_eq_some_iff.mp run
    obtain ⟨inv', same⟩ := inv.moveErroredFrom loop
    exact ⟨⟨inv'.inactive, inv'.pollin, inv'.fd, inv'.once, inv'.errored⟩, same⟩
  · cases run
    exact ⟨inv, fun _ => Iff.rfl⟩

end Changes

end Kinetic
