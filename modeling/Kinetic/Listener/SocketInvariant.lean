import Kinetic.Lib.Transition
import Kinetic.Listener.Tracking
import Kinetic.Sink.Model
import Mathlib.Data.List.Nodup

namespace Kinetic
open Transition (Reach exec exists_reach_of_exec)

/-- The sockets of a listener, with their connections. -/
structure SocketSide where
  table : SocketTable
  conns : Connections

/-- What happens to the sockets: a new connection is added, a socket removed, an error set for the socket in a place, and
the sockets with errors moved to the end. -/
inductive SocketAction
  | add (ci : Nat) (info : ConnectionInfo) (readBuf : Nat → UInt8)
  | remove (fd : Int)
  | setError (id : Nat) (err : RxError)
  | moveErrored

/-- `add_socket` with the sink callback of a new session and an allocation that succeeds, `remove_socket`, the end of
`set_error_for_socket`, or the end of `ListenerIO_AttemptRecv`. -/
def socketStep (s : SocketSide) : SocketAction → Option SocketSide
  | .add ci info readBuf => do
    let (_, res) ← sinkCb .calloc readBuf 0
    let (table, conns) ← addSocket ⟨res.fullMsgBuffer, res.nextRead, true⟩ s.table (s.conns.set ci info) ci
    some ⟨table, conns⟩
  | .remove fd => do
    let table ← removeSocket s.table fd
    some { s with table := table }
  | .setError id err =>
    let ci := s.table.fdInfo id
    some ⟨{ s.table with errorOccured := true }, s.conns.set ci { s.conns.info ci with error := err }⟩
  | .moveErrored => do
    let table ← moveErroredActiveSocketsToEnd s.table s.conns
    some { s with table := table }

/-- A connection that is added is a new one, and an error below zero is set for a socket that is tracked. -/
def SocketAction.Proper (s : SocketSide) : SocketAction → Prop
  | .add ci _ _ => ∀ i, i < s.table.trackedFds → s.table.fdInfo i ≠ ci
  | .setError id err => id < s.table.trackedFds ∧ err.negative = true
  | _ => True

instance SocketAction.decidableProper (s : SocketSide) : (a : SocketAction) → Decidable (a.Proper s)
  | .add ci _ _ => inferInstanceAs (Decidable (∀ i, i < s.table.trackedFds → s.table.fdInfo i ≠ ci))
  | .setError id err => inferInstanceAs (Decidable (id < s.table.trackedFds ∧ err.negative = true))
  | .remove _ => .isTrue trivial
  | .moveErrored => .isTrue trivial

/-- The tracked sockets: their number, whether they are active, and their connection. -/
def SocketTable.entries (t : SocketTable) : List (PollFd × Nat) := (List.range t.trackedFds).map t.entry

section Effects
variable {t t' : SocketTable} {conns conns' : Connections} {ci : Nat} {fd : Int}

theorem SocketTable.mem_entries (e : PollFd × Nat) : e ∈ t.entries ↔ ∃ i, i < t.trackedFds ∧ t.entry i = e := by
  simp only [SocketTable.entries, List.mem_map, List.mem_range]

theorem SocketsInv.entries_nodup (inv : SocketsInv t conns) : t.entries.Nodup := by
  refine List.Nodup.map_on (fun i below j belowJ same => ?_) List.nodup_range
  have numbers : (t.fds i).fd = (t.fds j).fd := congrArg (fun e => e.1.fd) same
  exact inv.once i j (List.mem_range.mp below) (List.mem_range.mp belowJ) numbers

theorem SocketTable.absent (new : ∀ i, i < t.trackedFds → (t.fds i).fd ≠ fd) (pollin : Bool)
    (ci : Nat) : (⟨fd, pollin⟩, ci) ∉ t.entries := by
  intro member
  obtain ⟨i, below, same⟩ := (SocketTable.mem_entries _).mp member
  exact new i below (congrArg (fun e => e.1.fd) same)

/-- Taking a connection in adds its entry to the others. -/
theorem SocketsInv.track_perm (inv : SocketsInv t conns) (new : ∀ i, i < t.trackedFds → (t.fds i).fd ≠ fd)
    (info : (conns.info ci).fd = fd) : (t.track ci fd).entries.Perm ((⟨fd, true⟩, ci) :: t.entries) := by
  have nodup := List.nodup_cons.mpr ⟨SocketTable.absent new true ci, inv.entries_nodup⟩
  refine (List.perm_ext_iff_of_nodup (inv.track new info).entries_nodup nodup).mpr fun e => ?_
  have entry := t.track_entry ci fd inv.inactive
  have inactive := inv.inactive
  rw [List.mem_cons, SocketTable.mem_entries, SocketTable.mem_entries, SocketTable.track_trackedFds]
  constructor
  · rintro ⟨i, below, rfl⟩
    rw [entry i]
    split
    · exact .inl rfl
    · split
      · exact .inr ⟨t.trackedFds - t.inactiveFds, by omega, rfl⟩
      · exact .inr ⟨i, by omega, rfl⟩
  · rintro (rfl | ⟨i, below, rfl⟩)
    · exact ⟨t.trackedFds - t.inactiveFds, by omega, by rw [entry, if_pos rfl]⟩
    · by_cases first : i = t.trackedFds - t.inactiveFds
      · refine ⟨t.trackedFds, by omega, ?_⟩
        rw [entry, if_neg (by omega), if_pos rfl, first]
      · exact ⟨i, by omega, by rw [entry, if_neg first, if_neg (by omega)]⟩

theorem RemovedAt.entry {id : Nat} {place : Nat → Nat} (removed : RemovedAt t t' id place) {j : Nat}
    (below : j < t'.trackedFds) : t'.entry j = t.entry (place j) := by
  rw [SocketTable.entry, removed.fds j below, removed.info j below, SocketTable.entry]

theorem RemovedAt.mem_entries {id : Nat} {place : Nat → Nat} (removed : RemovedAt t t' id place)
    (leaves : LeavesOut id t.trackedFds place) (e : PollFd × Nat) :
    e ∈ t'.entries ↔ ∃ i, i < t.trackedFds ∧ i ≠ id ∧ t.entry i = e := by
  have tracked := removed.tracked
  rw [SocketTable.mem_entries]
  constructor
  · rintro ⟨j, below, rfl⟩
    exact ⟨place j, leaves.below j (by omega), leaves.other j (by omega), (removed.entry below).symm⟩
  · rintro ⟨i, below, other, rfl⟩
    obtain ⟨j, belowJ, rfl⟩ := leaves.onto i below other
    exact ⟨j, by omega, removed.entry (by omega)⟩

/-- The places that are left after a removal. -/
theorem SocketsInv.leavesOut (inv : SocketsInv t conns) {id : Nat} (below : id < t.trackedFds) :
    LeavesOut id t.trackedFds (if (t.fds id).pollin then activePlace id (t.trackedFds - t.inactiveFds - 1) (t.trackedFds - 1)
      else inactivePlace id (t.trackedFds - 1)) := by
  have inactive := inv.inactive
  have front := inv.pollin id below
  split
  · rename_i active
    have inFront := front.mp active
    exact activePlace_leavesOut (by omega) (by omega)
  · exact inactivePlace_leavesOut below

/-- `remove_socket` takes out the entry with the number. -/
theorem SocketsInv.removeSocket_perm (inv : SocketsInv t conns) (run : Kinetic.removeSocket t fd = some t') :
    t'.entries.Perm (t.entries.filter fun e => e.1.fd ≠ fd) := by
  have after := (inv.removeSocket run).1
  refine (List.perm_ext_iff_of_nodup after.entries_nodup (inv.entries_nodup.filter _)).mpr fun e => ?_
  rw [List.mem_filter, decide_eq_true_eq]
  unfold Kinetic.removeSocket at run
  split at run
  · rename_i missing
    cases run
    refine ⟨fun member => ⟨member, ?_⟩, And.left⟩
    obtain ⟨i, below, rfl⟩ := (SocketTable.mem_entries _).mp member
    have none := List.find?_eq_none.mp missing i (List.mem_range.mpr below)
    have apart : (t.fds i).fd ≠ fd := by simpa using none
    exact apart
  · rename_i id found
    have below : id < t.trackedFds := List.mem_range.mp (List.mem_of_find?_eq_some found)
    have own : (t.fds id).fd = fd := by simpa using List.find?_some found
    rw [(removeAt_spec inv below run).mem_entries (inv.leavesOut below), SocketTable.mem_entries]
    constructor
    · rintro ⟨i, belowI, other, rfl⟩
      exact ⟨⟨i, belowI, rfl⟩, fun same => other (inv.once i id belowI below (same.trans own.symm))⟩
    · rintro ⟨⟨i, belowI, rfl⟩, apart⟩
      refine ⟨i, belowI, ?_, rfl⟩
      rintro rfl
      exact apart own

/-- The assertion of `remove_socket` holds. -/
theorem SocketsInv.removeSocket_enabled (inv : SocketsInv t conns) (fd : Int) : Kinetic.removeSocket t fd ≠ none := by
  unfold Kinetic.removeSocket
  split
  · simp
  · rename_i id found
    have below : id < t.trackedFds := List.mem_range.mp (List.mem_of_find?_eq_some found)
    have front := inv.pollin id below
    unfold SocketTable.removeAt
    dsimp only
    split
    · simp
    · split
      · rename_i several other
        have inFront := front.mp other.1
        rw [if_pos (by omega)]
        simp
      · simp

/-- The assertion of `add_socket` that the active sockets come first. -/
theorem SocketsInv.contiguous (inv : SocketsInv t conns) : t.contiguous = true := by
  refine List.all_eq_true.mpr fun i member => ?_
  have front := inv.pollin i (List.mem_range.mp member)
  rw [decide_eq_true_eq]
  by_cases active : i < t.trackedFds - t.inactiveFds
  · rw [front.mpr active, decide_eq_true active]
  · rw [inv.pollin_off (List.mem_range.mp member) (Nat.le_of_not_lt active), decide_eq_false active]

theorem SocketsInv.addSocket_enabled (inv : SocketsInv t conns) (env : AddEnv) (quiet : env.fullMsg = false) (ci : Nat) :
    addSocket env t conns ci ≠ none := by
  unfold addSocket
  dsimp only
  split
  · simp
  · split
    · simp
    · rename_i missing
      have new (i : Nat) (below : i < t.trackedFds) : (t.fds i).fd ≠ (conns.info ci).fd := by
        intro same
        exact missing (List.any_eq_true.mpr ⟨i, List.mem_range.mpr below, decide_eq_true same⟩)
      rw [if_pos ⟨(inv.track new rfl).contiguous, quiet⟩]
      split
      · simp
      · split <;> simp

/-- The assertions of `move_errored_active_sockets_to_end` hold. -/
theorem SocketsInv.moveErrored_enabled (inv : SocketsInv t conns) {id : Nat} (active : id < t.trackedFds - t.inactiveFds) :
    t.moveErrored conns id ≠ none := by
  have inactive := inv.inactive
  unfold SocketTable.moveErrored
  dsimp only
  split
  · rw [if_neg, if_pos (by omega)]
    · simp
    · rintro ⟨other, same⟩
      rw [Function.update_of_ne (Ne.symm other)] at same
      exact other (inv.once _ _ (by omega) (by omega) same.symm)
  · simp

theorem SocketsInv.moveErroredFrom_enabled (inv : SocketsInv t conns) (n id : Nat) :
    Kinetic.moveErroredFrom conns n id t ≠ none := by
  induction n generalizing id t with
  | zero => simp [Kinetic.moveErroredFrom]
  | succ n ih =>
    unfold Kinetic.moveErroredFrom
    split
    · rename_i active
      obtain ⟨next, moved⟩ := Option.ne_none_iff_exists'.mp (inv.moveErrored_enabled active)
      rw [moved]
      exact ih (inv.moveErrored active moved).1 (id + 1)
    · simp

theorem SocketsInv.moveErroredActiveSocketsToEnd_enabled (inv : SocketsInv t conns) :
    Kinetic.moveErroredActiveSocketsToEnd t conns ≠ none := by
  unfold Kinetic.moveErroredActiveSocketsToEnd
  split
  · simpa using inv.moveErroredFrom_enabled t.trackedFds 0
  · simp

/-- What happens to connections that are not tracked is of no concern. -/
theorem SocketsInv.set_other (inv : SocketsInv t conns) (info : ConnectionInfo)
    (other : ∀ i, i < t.trackedFds → t.fdInfo i ≠ ci) : SocketsInv t (conns.set ci info) := by
  refine inv.connections fun x tracked => ?_
  obtain ⟨i, below, rfl⟩ := tracked
  simp [Connections.set, other i below]

end Effects

structure SocketSide.Inv (s : SocketSide) : Prop where
  sockets : SocketsInv s.table s.conns
  bounded : s.table.trackedFds ≤ maxFds

section Run
variable {s s' : SocketSide} {ci : Nat} {info : ConnectionInfo} {readBuf : Nat → UInt8}

/-- A new session's sink callback asks for a header. -/
theorem socketStep_add : socketStep s (.add ci info readBuf) =
    (addSocket ⟨false, pduHeaderLen, true⟩ s.table (s.conns.set ci info) ci).map fun after => ⟨after.1, after.2⟩ := by
  simp only [socketStep, sinkCb, SocketInfo.calloc, resetTransfer, if_true, Option.bind_eq_bind, Option.bind_some,
    Option.map_eq_bind]
  rfl

theorem Connections.set_info (conns : Connections) (ci : Nat) (info : ConnectionInfo) :
    (conns.set ci info).info ci = info := by
  simp [Connections.set]

/-- The three ends of `add_socket` when the allocation succeeds. -/
theorem SocketSide.Inv.add (inv : s.Inv) (new : ∀ i, i < s.table.trackedFds → s.table.fdInfo i ≠ ci)
    (run : socketStep s (.add ci info readBuf) = some s') :
    s'.Inv ∧ ((s.table.trackedFds = maxFds ∨ ∃ i, i < s.table.trackedFds ∧ (s.table.fds i).fd = info.fd) ∧ s'.table = s.table ∨
      (s.table.trackedFds ≠ maxFds ∧ ∀ i, i < s.table.trackedFds → (s.table.fds i).fd ≠ info.fd) ∧
        s'.table.entries.Perm ((⟨info.fd, true⟩, ci) :: s.table.entries)) := by
  rw [socketStep_add] at run
  obtain ⟨⟨table, conns⟩, added, run⟩ := Option.map_eq_some_iff.mp run
  cases run
  have kept := inv.sockets.set_other info new
  have here := s.conns.set_info ci info
  have bounded := inv.bounded
  cases addSocket_cases added with
  | full full => exact ⟨⟨kept, bounded⟩, .inl ⟨.inl full, rfl⟩⟩
  | present i below same =>
    rw [here] at same
    refine ⟨⟨kept.connections fun _ _ => ⟨rfl, id⟩, bounded⟩, .inl ⟨.inr ⟨i, below, same⟩, rfl⟩⟩
  | added size room absent =>
    have tracked := kept.track absent rfl
    have perm := kept.track_perm absent rfl
    refine ⟨⟨?_, ?_⟩, .inr ⟨⟨room, by rwa [here] at absent⟩, ?_⟩⟩
    · refine SocketsInv.connections ⟨tracked.inactive, tracked.pollin, tracked.fd, tracked.once, tracked.errored⟩ ?_
      intro x _
      by_cases same : x = ci
      · simp [same, Connections.set]
      · simp [same, Connections.set]
    · show s.table.trackedFds + 1 ≤ maxFds
      omega
    · show (s.table.track ci ((s.conns.set ci info).info ci).fd).entries.Perm _
      rw [here] at perm ⊢
      exact perm
  | notGrown _ _ _ failed => cases failed

theorem moveErroredFrom_tracked {t t' : SocketTable} {conns : Connections} {n id : Nat}
    (run : moveErroredFrom conns n id t = some t') : t'.trackedFds = t.trackedFds := by
  induction n generalizing id t with
  | zero => cases run; rfl
  | succ n ih =>
    unfold moveErroredFrom at run
    split at run
    · obtain ⟨next, moved, rest⟩ := Option.bind_eq_some_iff.mp run
      rw [ih rest, moveErrored_tracked moved]
    · cases run
      rfl

theorem moveErroredActiveSocketsToEnd_tracked {t t' : SocketTable} {conns : Connections}
    (run : moveErroredActiveSocketsToEnd t conns = some t') : t'.trackedFds = t.trackedFds := by
  unfold moveErroredActiveSocketsToEnd at run
  split at run
  · obtain ⟨moved, loop, rfl⟩ := Option.map_eq_some_iff.mp run
    have same := moveErroredFrom_tracked loop
    exact same
  · cases run
    rfl

theorem SocketSide.Inv.step {a : SocketAction} (inv : s.Inv) (proper : a.Proper s) (run : socketStep s a = some s') : s'.Inv := by
  cases a with
  | add ci info readBuf => exact (inv.add proper run).1
  | remove fd =>
    obtain ⟨table, removed, run⟩ := Option.bind_eq_some_iff.mp run
    cases run
    refine ⟨(inv.sockets.removeSocket removed).1, ?_⟩
    have bounded := inv.bounded
    unfold removeSocket at removed
    split at removed
    · cases removed
      exact bounded
    · rename_i id found
      have below := List.mem_range.mp (List.mem_of_find?_eq_some found)
      have tracked := (removeAt_spec inv.sockets below removed).tracked
      show table.trackedFds ≤ maxFds
      omega
  | setError id err =>
    cases run
    refine ⟨?_, inv.bounded⟩
    have sockets := inv.sockets
    refine SocketsInv.connections ⟨sockets.inactive, sockets.pollin, sockets.fd, sockets.once, sockets.errored⟩ ?_
    intro x _
    by_cases same : x = s.table.fdInfo id
    · simp [same, Connections.set, proper.2]
    · simp [same, Connections.set]
  | moveErrored =>
    obtain ⟨table, moved, run⟩ := Option.bind_eq_some_iff.mp run
    cases run
    have same := moveErroredActiveSocketsToEnd_tracked moved
    have bounded := inv.bounded
    refine ⟨(inv.sockets.moveErroredActiveSocketsToEnd moved).1, ?_⟩
    show table.trackedFds ≤ maxFds
    omega

theorem SocketSide.Inv.enabled {a : SocketAction} (inv : s.Inv) (proper : a.Proper s) : socketStep s a ≠ none := by
  cases a with
  | add ci info readBuf =>
    rw [socketStep_add]
    simpa using (inv.sockets.set_other info proper).addSocket_enabled ⟨false, pduHeaderLen, true⟩ rfl ci
  | remove fd =>
    obtain ⟨table, removed⟩ := Option.ne_none_iff_exists'.mp (inv.sockets.removeSocket_enabled fd)
    simp [socketStep, removed]
  | setError id err => simp [socketStep]
  | moveErrored =>
    obtain ⟨table, moved⟩ := Option.ne_none_iff_exists'.mp inv.sockets.moveErroredActiveSocketsToEnd_enabled
    simp [socketStep, moved]

theorem SocketSide.inv_of_reach {conns : Connections} (reach : Reach socketStep ⟨.new, conns⟩ (fun s a => a.Proper s) s) :
    s.Inv :=
  reach.invariant ⟨SocketsInv.new conns, Nat.zero_le _⟩ fun _ _ _ inv proper run => inv.step proper run

end Run

/-- What is promised of the sockets of a listener. -/
structure SocketSide.Consistent (s : SocketSide) : Prop where
  fd : ∀ i, i < s.table.trackedFds → (s.conns.info (s.table.fdInfo i)).fd = (s.table.fds i).fd
  distinct : ∀ i j, i < s.table.trackedFds → j < s.table.trackedFds → (s.table.fds i).fd = (s.table.fds j).fd → i = j
  active : ∀ i, i < s.table.trackedFds - s.table.inactiveFds → (s.table.fds i).pollin = true
  inactive : ∀ i, i < s.table.trackedFds → s.table.trackedFds - s.table.inactiveFds ≤ i → (s.table.fds i).pollin = false
  counts : s.table.inactiveFds ≤ s.table.trackedFds ∧ s.table.trackedFds ≤ maxFds
  asserts : ∀ a, a.Proper s → socketStep s a ≠ none
  adds : ∀ ci info readBuf s', SocketAction.Proper s (.add ci info readBuf) →
    socketStep s (.add ci info readBuf) = some s' →
    if s.table.trackedFds = maxFds ∨ ∃ i, i < s.table.trackedFds ∧ (s.table.fds i).fd = info.fd then s'.table = s.table
    else s'.table.entries.Perm ((⟨info.fd, true⟩, ci) :: s.table.entries)
  removes : ∀ fd s', socketStep s (.remove fd) = some s' →
    s'.table.entries.Perm (s.table.entries.filter fun e => e.1.fd ≠ fd)

/-- The sockets of a listener stay consistent whatever is added, removed and fails. -/
theorem sockets_consistent {s : SocketSide} {conns : Connections}
    (reach : Reach socketStep ⟨.new, conns⟩ (fun s a => a.Proper s) s) : s.Consistent := by
  have inv := SocketSide.inv_of_reach reach
  have sockets := inv.sockets
  have few := sockets.inactive
  refine
    { fd := fun i below => (sockets.fd i below).symm
      distinct := sockets.once
      active := fun i front => (sockets.pollin i (by omega)).mpr front
      inactive := fun i below behind => sockets.pollin_off below behind
      counts := ⟨few, inv.bounded⟩
      asserts := fun a proper => inv.enabled proper
      adds := fun ci info readBuf s' new run => ?_
      removes := fun fd s' run => ?_ }
  · rcases (inv.add new run).2 with ⟨turned, same⟩ | ⟨⟨room, absent⟩, perm⟩
    · rw [if_pos turned]
      exact same
    · rw [if_neg]
      · exact perm
      · rintro (full | ⟨i, below, same⟩)
        · exact room full
        · exact absent i below same
  · obtain ⟨table, removed, run⟩ := Option.bind_eq_some_iff.mp run
    cases run
    exact sockets.removeSocket_perm removed

/-- Three sockets, of which the first one has failed and the last one has been removed. -/
theorem sockets_consistent_three : ∃ s, Reach socketStep ⟨.new, ⟨fun _ => ⟨0, false, 0, .none, 0⟩, []⟩⟩
      (fun s a => a.Proper s) s ∧ s.table.entries = [(⟨6, true⟩, 2), (⟨5, false⟩, 1)] ∧ s.Consistent := by
  have trace : (exec socketStep (fun s a => decide (a.Proper s)) ⟨.new, ⟨fun _ => ⟨0, false, 0, .none, 0⟩, []⟩⟩
      [.add 1 ⟨5, false, -1, .none, 0⟩ (fun _ => 0), .add 2 ⟨6, false, -1, .none, 0⟩ (fun _ => 0),
        .add 3 ⟨7, false, -1, .none, 0⟩ (fun _ => 0), .setError 0 .pollhup, .moveErrored, .remove 7]).map
      (fun s => s.table.entries) = some [(⟨6, true⟩, 2), (⟨5, false⟩, 1)] := by decide +kernel
  obtain ⟨s, reach, seen⟩ := exists_reach_of_exec trace
  exact ⟨s, reach, seen, sockets_consistent reach⟩

end Kinetic
